import DeferredTx.Address.Url

/-!
# Addresses of the store

* `isInMemory`: whether an address names a database in memory, which no file stands behind.
-/

namespace DeferredTx.Store

open Address

/-- The text without `start` at its front, however often it stands there. -/
def dropRepeated (start : List Char) : Nat → List Char → List Char
  | 0, cs => cs
  | n + 1, cs => if start.isPrefixOf cs then dropRepeated start n (cs.drop start.length) else cs

/-- The file name and the options of an address. -/
def nameAndOptions (url : List Char) : List Char × List (List Char) :=
  let behindSlashes := dropRepeated "sqlite://".toList url.length url
  let rest := dropRepeated "sqlite:".toList behindSlashes.length behindSlashes
  match Text.splitAtFirst? '?' rest with
  | some (name, options) => (name, (Text.splitAll (· == '&') options).filter (!·.isEmpty))
  | none => (rest, [])

/-- The options under which a database in memory can be opened. -/
def knownOptions : List (List Char) :=
  ["mode=memory", "mode=rw", "mode=rwc", "cache=private", "cache=shared"].map String.toList

/-- Whether an address names a database in memory: by the name for it, by an empty name, or by its
mode. Unknown options are refused. -/
def isInMemory (address : String) : Bool :=
  match Url.read address.toList with
  | .error _ => false
  | .ok url =>
    let (name, options) := nameAndOptions url.render
    options.all knownOptions.contains
      && (name.isEmpty || name == ":memory:".toList || options.contains "mode=memory".toList)

end DeferredTx.Store
