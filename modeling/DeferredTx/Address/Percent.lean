import DeferredTx.Text.Hex

/-!
# Percent encoding

In every part of a URL some characters are written as the bytes of their UTF-8 form, each as a
percent sign and two digits. Characters outside ASCII always are; a percent sign that is there already
stays as it is.

* `encode`: a text with the characters of a set encoded.
* `controls`, `queryChars`, `fragmentChars`, `pathChars`, `userChars`: the sets of the parts.
-/

namespace DeferredTx.Address.Percent

/-- One byte, percent-encoded. -/
def byte (b : UInt8) : List Char :=
  '%' :: Text.padZeros 2 ((Text.hex b.toNat).map Char.toUpper)

/-- The text with the characters of `chars`, and all outside ASCII, encoded. -/
def encode (chars : Char → Bool) (cs : List Char) : List Char :=
  cs.flatMap fun c =>
    if chars c || 0x7F < c.toNat then (String.utf8EncodeChar c).flatMap byte else [c]

/-- Control characters, encoded everywhere. -/
def controls (c : Char) : Bool :=
  c.toNat < 0x20 || c.toNat == 0x7F

/-- The characters encoded in queries; the apostrophe only under the schemes of the web. -/
def queryChars (special : Bool) (c : Char) : Bool :=
  controls c || c ∈ [' ', '"', '#', '<', '>'] || special && c == '\''

/-- The characters encoded in fragments. -/
def fragmentChars (c : Char) : Bool :=
  controls c || c ∈ [' ', '"', '<', '>', '\x60']

/-- The characters encoded in paths. -/
def pathChars (c : Char) : Bool :=
  fragmentChars c || c ∈ ['#', '?', '\x7b', '\x7d']

/-- The characters encoded in user names and passwords. -/
def userChars (c : Char) : Bool :=
  pathChars c || c ∈ ['/', ':', ';', '=', '@', '[', '\\', ']', '^', '|']

/-- The text with encoded ASCII characters decoded; other encoded bytes stay as they are. -/
def decodeAscii : List Char → List Char
  | [] => []
  | c :: r =>
    if c = '%' then
      match r with
      | a :: b :: r' =>
        match Text.hexDigit? a, Text.hexDigit? b with
        | some x, some y =>
          if x < 8 then Char.ofNat (16 * x + y) :: decodeAscii r'
          else c :: decodeAscii (a :: b :: r')
        | _, _ => c :: decodeAscii (a :: b :: r')
      | [a] => c :: decodeAscii [a]
      | [] => [c]
    else c :: decodeAscii r

end DeferredTx.Address.Percent
