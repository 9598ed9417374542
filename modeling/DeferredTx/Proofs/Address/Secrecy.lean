import Mathlib.Data.List.Find
import DeferredTx.Proofs.Address.Credentials
import DeferredTx.Proofs.Settings.Sources
import DeferredTx.Session.Opening

/-!
# Passwords are kept secret

Two DSNs that differ in the password only cannot be told apart by any text that is made from them, with
one exception: the address of an unknown database is quoted as it is.

* `Dsn.Account`: a DSN with a user and a password, but for the password.
* `Dsn.Hides`: what is the same for every password.
* `Session.connectController_of_known`: what is made of a library's answer.
* `Dsn.Account.hides_mask`, `Dsn.Account.hides_validate`, `Dsn.Account.hides_connectController`: masking
  hides the password, and so do checking and connecting if the kind of database is known.
* `Settings.SameButDsn`, `Dsn.Account.report_load`: so does loading, from variables or from a file.
* `password_hidden_if_kind_known`: **what the texts of a DSN disclose.**
-/

namespace DeferredTx

open Address Text

namespace Dsn

/-- Behind the prefix is the address, without it there is nothing to ask a controller for. -/
theorem delegate?_eq_address (dsn : String) :
    delegate? dsn = if accepts dsn then some (address dsn) else none := by
  unfold accepts address
  cases delegate? dsn <;> rfl

end Dsn

namespace Session

variable {σ : Type}

/-- What is made of a library's answer: a controller over the database, or an error that says nothing
but fixed words and the library's reason. -/
def opened (kind : DatabaseKind) :
    Except ConnectFault σ → Except DbError (Option (Controller (Connection σ)))
  | .ok database => .ok (some ⟨{ database, kind }, true, true⟩)
  | .error fault => .error fault.error

variable [Database σ] (connector : Connector σ) {dsn : String}

/-- **A connection is what the library answers**, under a controller, if the kind of database is known. -/
theorem connectController_of_known {kind : DatabaseKind}
    (hkind : DatabaseKind.ofUrl? (Dsn.address dsn) = some kind) :
    connector.connectController dsn =
      if Dsn.accepts dsn then opened kind (connector (Dsn.address dsn)) else .ok none := by
  unfold Connector.connectController
  rw [Dsn.delegate?_eq_address]
  cases Dsn.accepts dsn with
  | false => rfl
  | true =>
    simp only [if_true, Connector.connect, hkind]
    cases connector (Dsn.address dsn) <;> rfl

/-- An unknown kind is told by the address itself, and the library is not asked. -/
theorem connectController_of_unknown (hkind : DatabaseKind.ofUrl? (Dsn.address dsn) = none)
    (hasks : Dsn.accepts dsn = true) :
    connector.connectController dsn = .error (.unknownDatabase (Dsn.address dsn)) := by
  unfold Connector.connectController
  rw [Dsn.delegate?_eq_address, if_pos hasks]
  simp only [Connector.connect, hkind]
  rfl

end Session

namespace DatabaseKind

/-- What stands in front of the first colon is compared as a whole. -/
theorem isPrefixOf_colon {u v : List Char} : ∀ {s t : List Char}, ':' ∉ s → ':' ∉ t →
    (s ++ ':' :: u).isPrefixOf (t ++ ':' :: v) = (s == t && u.isPrefixOf v)
  | [], [], _, _ => rfl
  | [], d :: t, _, ht => by
    have hd : (':' == d) = false := beq_eq_false_iff_ne.2 (List.ne_of_not_mem_cons ht)
    simp [List.isPrefixOf, hd]
  | c :: s, [], hs, _ => by
    have hc : (c == ':') = false := beq_eq_false_iff_ne.2 (List.ne_of_not_mem_cons hs).symm
    simp [List.isPrefixOf, hc]
  | c :: s, d :: t, hs, ht => by
    have hrest := isPrefixOf_colon (u := u) (v := v) (List.not_mem_of_not_mem_cons hs)
      (List.not_mem_of_not_mem_cons ht)
    simp only [List.cons_append, List.isPrefixOf, hrest, List.cons_beq_cons, Bool.and_assoc]

/-- Addresses begin with a scheme and a colon, and possibly with two slashes behind it. -/
theorem schemes_colon : ∀ s ∈ schemes, ∃ w v, s.1.toList = w ++ ':' :: v ∧ ':' ∉ w ∧
    w.head?.any Char.isAlpha = true ∧ ∀ more, v.isPrefixOf ('/' :: '/' :: more) = true := by
  simp only [schemes, List.forall_mem_cons]
  exact ⟨⟨"postgres".toList, ['/', '/'], rfl, by decide, rfl, fun _ => rfl⟩,
    ⟨"postgresql".toList, ['/', '/'], rfl, by decide, rfl, fun _ => rfl⟩,
    ⟨"mysql".toList, ['/', '/'], rfl, by decide, rfl, fun _ => rfl⟩,
    ⟨"mariadb".toList, ['/', '/'], rfl, by decide, rfl, fun _ => rfl⟩,
    ⟨"sqlite".toList, [], rfl, by decide, rfl, fun _ => rfl⟩,
    ⟨"file".toList, [], rfl, by decide, rfl, fun _ => rfl⟩, List.forall_mem_nil _⟩

/-- The kind of database is told by what stands in front of the two slashes. -/
theorem ofUrl?_slashes {lead : List Char}
    (hlead : lead = [] ∨ ∃ scheme, lead = scheme ++ [':'] ∧ ':' ∉ scheme) (more : List Char) :
    ofUrl? (String.ofList (lead ++ '/' :: '/' :: more)) =
      ofUrl? (String.ofList (lead ++ ['/', '/'])) := by
  unfold ofUrl?
  refine congrArg _ (List.find?_congr fun s hs => ?_)
  obtain ⟨w, v, hw, hcolon, hhead, hv⟩ := schemes_colon s hs
  rw [String.toList_ofList, String.toList_ofList, hw]
  rcases hlead with rfl | ⟨scheme, rfl, hscheme⟩
  · -- no scheme begins with a slash
    cases w with
    | nil => cases hhead
    | cons c w =>
      have hc : (c == '/') = false := by
        rw [beq_eq_false_iff_ne]
        rintro rfl
        exact absurd hhead Bool.false_ne_true
      simp [List.isPrefixOf, hc]
  · have hcompare : ∀ more, (w ++ ':' :: v).isPrefixOf ((scheme ++ [':']) ++ '/' :: '/' :: more) =
        (w == scheme) := by
      intro more
      rw [List.append_assoc, List.singleton_append, isPrefixOf_colon hcolon hscheme, hv, Bool.and_true]
    rw [hcompare, hcompare]

end DatabaseKind

namespace Dsn

/-- What is the same for every password. -/
def Hides {β : Type} (f : List Char → β) : Prop :=
  ∀ p q, Url.IsPassword p → Url.IsPassword q → f p = f q

/-- A DSN with a user and a password, but for the password. -/
structure Account where
  /-- Whether the prefix that asks for a controller is in front. -/
  marked : Bool
  scheme : List Char
  user : List Char
  /-- What is behind the at sign. -/
  rest : List Char
  isScheme : Url.IsScheme scheme
  isUser : Url.IsUser user

namespace Account

variable (a : Account)

/-- What is behind the two slashes, with a password. -/
def credentials (p : List Char) : List Char :=
  a.user ++ ':' :: (p ++ '@' :: a.rest)

/-- The DSN with a password. -/
def dsn (p : List Char) : String :=
  (if a.marked then marker else "") ++ String.ofList (a.scheme ++ [':', '/', '/'] ++ a.credentials p)

/-- Whether the scheme is taken for the prefix. -/
def schemeTaken : Bool :=
  !a.marked && a.scheme == "smartcommit".toList

/-- What is in front of the two slashes of the address. -/
def lead : List Char :=
  if a.schemeTaken then [] else a.scheme ++ [':']

/-- The kind of database that the scheme stands for. -/
def kind? : Option DatabaseKind :=
  DatabaseKind.ofUrl? (String.ofList (a.lead ++ ['/', '/']))

theorem lead_cases : a.lead = [] ∨ ∃ scheme, a.lead = scheme ++ [':'] ∧ ':' ∉ scheme := by
  unfold lead
  split
  · exact .inl rfl
  · exact .inr ⟨a.scheme, rfl, Url.not_mem_of_isScheme a.isScheme rfl⟩

theorem delegate?_dsn (p : List Char) : delegate? (a.dsn p) =
    if a.marked || a.schemeTaken then some (String.ofList (a.lead ++ '/' :: '/' :: a.credentials p))
    else none := by
  unfold delegate? dsn lead schemeTaken
  cases hmarked : a.marked with
  | true => simp
  | false =>
    have hcolon : ':' ∉ a.scheme := Url.not_mem_of_isScheme a.isScheme rfl
    have htext : ("" ++ String.ofList (a.scheme ++ [':', '/', '/'] ++ a.credentials p)).toList =
        a.scheme ++ ':' :: '/' :: '/' :: a.credentials p := by
      simp
    have hcompare : marker.toList.isPrefixOf (a.scheme ++ ':' :: '/' :: '/' :: a.credentials p) =
        ("smartcommit".toList == a.scheme) :=
      (DatabaseKind.isPrefixOf_colon (s := "smartcommit".toList) (u := []) (by decide) hcolon).trans
        (Bool.and_true _)
    simp only [Bool.false_eq_true, if_false, htext, hcompare, Bool.not_false, Bool.true_and,
      Bool.false_or]
    -- the scheme may read like the prefix, and it is then dropped
    by_cases hscheme : a.scheme = "smartcommit".toList
    · rw [hscheme]
      rfl
    · rw [if_neg (by simpa using Ne.symm hscheme), if_neg (by simpa using hscheme)]

theorem address_dsn (p : List Char) :
    address (a.dsn p) = String.ofList (a.lead ++ '/' :: '/' :: a.credentials p) := by
  unfold address
  rw [delegate?_dsn]
  cases hasks : a.marked || a.schemeTaken with
  | true => rfl
  | false =>
    obtain ⟨hmarked, htaken⟩ := Bool.or_eq_false_iff.1 hasks
    simp [dsn, lead, hmarked, htaken]

theorem accepts_dsn (p : List Char) : accepts (a.dsn p) = (a.marked || a.schemeTaken) := by
  rw [accepts, delegate?_dsn]
  cases a.marked || a.schemeTaken <;> rfl

theorem ofUrl?_address (p : List Char) : DatabaseKind.ofUrl? (address (a.dsn p)) = a.kind? := by
  rw [address_dsn, kind?, DatabaseKind.ofUrl?_slashes a.lead_cases]

theorem read_address : ∃ (r : Except UrlError Url) (more : List Char),
    (∀ u, r = .ok u → Url.Written a.scheme a.user u) ∧
      ∀ p, Url.IsPassword p → Url.read (address (a.dsn p)).toList =
        r.map (Url.withPassword (Percent.encode Percent.userChars (p ++ more))) := by
  cases hlead : a.schemeTaken with
  | true =>
    refine ⟨.error .noScheme, [], nofun, fun p hp => ?_⟩
    rw [address_dsn, lead, hlead, String.toList_ofList]
    exact Url.read_slashes a.isUser hp a.rest
  | false =>
    obtain ⟨r, more, hok, hread⟩ := Url.read_password a.isScheme a.isUser a.rest
    refine ⟨r, more, hok, fun p hp => ?_⟩
    rw [address_dsn, lead, hlead, String.toList_ofList, ← hread p hp]
    simp [credentials]

/-- Masking hides the password. -/
theorem hides_mask : Hides fun p => mask (a.dsn p) := by
  intro p q hp hq
  obtain ⟨r, more, -, hread⟩ := a.read_address
  dsimp only
  unfold mask
  rw [accepts_dsn, accepts_dsn, hread p hp, hread q hq]
  cases r with
  | error e => rfl
  | ok u => rfl

theorem not_blank_address (p : List Char) : allBlank (address (a.dsn p)).toList = false := by
  rw [address_dsn, String.toList_ofList, allBlank, List.all_eq_false]
  exact ⟨'/', by simp, by decide⟩

/-- If the kind of database is known, checking hides the password. -/
theorem hides_validate (h : a.kind? ≠ none) : Hides fun p => validate (a.dsn p) := by
  intro p q hp hq
  obtain ⟨k, hk⟩ := Option.ne_none_iff_exists'.1 h
  obtain ⟨r, more, -, hread⟩ := a.read_address
  dsimp only
  unfold validate
  simp only [not_blank_address, ofUrl?_address, hk, hread p hp, hread q hq]
  cases k <;> cases r <;> rfl

/-- The address of an unknown database is quoted as it is. -/
theorem validate_of_unknown (h : a.kind? = none) (p : List Char) :
    validate (a.dsn p) = .error (.unknownDatabase (address (a.dsn p))) := by
  unfold validate
  simp only [not_blank_address, ofUrl?_address, h]
  rfl

/-- So does connecting, if the library's answer does. -/
theorem hides_connectController {σ : Type} [Session.Database σ] {connector : Session.Connector σ}
    (h : a.kind? ≠ none) (hanswer : Hides fun p => connector (address (a.dsn p))) :
    Hides fun p => connector.connectController (a.dsn p) := by
  intro p q hp hq
  obtain ⟨k, hk⟩ := Option.ne_none_iff_exists'.1 h
  have hclosed : ∀ p, connector.connectController (a.dsn p) = if a.marked || a.schemeTaken
      then Session.opened k (connector (address (a.dsn p))) else .ok none := by
    intro p
    rw [Session.connectController_of_known connector ((a.ofUrl?_address p).trans hk), accepts_dsn]
  have hsame : connector (address (a.dsn p)) = connector (address (a.dsn q)) := hanswer p q hp hq
  dsimp only
  rw [hclosed, hclosed, hsame]

/-- The settings in words hide the password. -/
theorem hides_describe (smart : Bool) (auto : Option Bool) :
    Hides fun p => Settings.describe { dsn := a.dsn p, smartCommit := smart, autoCommit := auto } := by
  intro p q hp hq
  have hmask : mask (a.dsn p) = mask (a.dsn q) := a.hides_mask p q hp hq
  dsimp only
  unfold Settings.describe
  dsimp only
  rw [hmask]

end Account

end Dsn

namespace Settings

/-- What a caller can read off loaded settings: the settings in words, or the error. -/
def report : Except SettingsError Settings → Except (List String) String
  | .ok s => .ok s.describe
  | .error e => .error e.chain

/-- Two sources of settings, each a file and variables, that give the same settings but for the
address. -/
structure SameButDsn (files files' : Files) (vars vars' : Variables) (dsn dsn' : String) : Prop where
  smartCommit : vars.smartCommit = vars'.smartCommit
  autoCommit : vars.autoCommit = vars'.autoCommit
  read : ∃ f f', readFile files vars.file = .ok f ∧ readFile files' vars'.file = .ok f' ∧
    f.smartCommit = f'.smartCommit ∧ f.autoCommit = f'.autoCommit ∧
    (vars.dsn <|> f.dsn).getD ({} : Settings).dsn = dsn ∧
    (vars'.dsn <|> f'.dsn).getD ({} : Settings).dsn = dsn'

/-- Two such sources fail alike, or their addresses are left to be checked. -/
theorem SameButDsn.load_cases {files files' : Files} {vars vars' : Variables} {dsn dsn' : String}
    (h : SameButDsn files files' vars vars' dsn dsn') :
    (∃ e, load files vars = .error e ∧ load files' vars' = .error e) ∨
      ∃ smart auto, load files vars = checked { dsn, smartCommit := smart, autoCommit := auto } ∧
        load files' vars' = checked { dsn := dsn', smartCommit := smart, autoCommit := auto } := by
  obtain ⟨f, f', hread, hread', hsmart, hauto, rfl, rfl⟩ := h.read
  rw [load_of_file hread, load_of_file hread', h.smartCommit, h.autoCommit, hsmart, hauto]
  cases readSwitch .smartCommit vars'.smartCommit with
  | error e => exact .inl ⟨e, rfl, rfl⟩
  | ok smart =>
    cases readSwitch .autoCommit vars'.autoCommit with
    | error e => exact .inl ⟨e, rfl, rfl⟩
    | ok auto => exact .inr ⟨_, _, rfl, rfl⟩

end Settings

open Dsn Settings
open Session (Connector Database connectController_of_known connectController_of_unknown opened)

/-- What is loaded and checked hides the password in the same way. -/
theorem Dsn.Account.report_load (a : Account) (h : a.kind? ≠ none) {files files' : Files}
    {vars vars' : Variables} {p q : List Char} (hp : Url.IsPassword p) (hq : Url.IsPassword q)
    (hsources : SameButDsn files files' vars vars' (a.dsn p) (a.dsn q)) :
    report (load files vars) = report (load files' vars') := by
  rcases hsources.load_cases with ⟨e, he, he'⟩ | ⟨smart, auto, hload, hload'⟩
  · rw [he, he']
  · have hvalidate : validate (a.dsn p) = validate (a.dsn q) := a.hides_validate h p q hp hq
    have hdescribe := a.hides_describe smart auto p q hp hq
    rw [hload, hload', checked, checked]
    dsimp only at hdescribe ⊢
    rw [hvalidate]
    cases validate (a.dsn q) with
    | error cause => rfl
    | ok k => exact congrArg Except.ok hdescribe

/-- **What the texts of a DSN disclose.** The settings in words are the same for every password. If the
scheme stands for a known kind of database, so are the result of checking the DSN and what can be read
off the settings that are loaded with it, from variables or from a file. Connecting gives what the
library answers, in fixed words and its own, so it is the same for every password if the library's
answer is. If the kind is unknown, the error quotes the address as it is; settings may have failed to
load before that. -/
theorem password_hidden_if_kind_known (a : Account) :
    (∀ smart auto, Hides fun p =>
        Settings.describe { dsn := a.dsn p, smartCommit := smart, autoCommit := auto }) ∧
      (∀ k, a.kind? = some k →
        Hides (fun p => validate (a.dsn p)) ∧
          (∀ {σ : Type} [Database σ] (connector : Connector σ),
            (∀ p, connector.connectController (a.dsn p) =
              if accepts (a.dsn p) then opened k (connector (address (a.dsn p))) else .ok none) ∧
            (Hides (fun p => connector (address (a.dsn p))) →
              Hides fun p => connector.connectController (a.dsn p))) ∧
          ∀ files files' vars vars' p q, Url.IsPassword p → Url.IsPassword q →
            SameButDsn files files' vars vars' (a.dsn p) (a.dsn q) →
              report (load files vars) = report (load files' vars')) ∧
      (a.kind? = none →
        (∀ p, validate (a.dsn p) = .error (.unknownDatabase (address (a.dsn p)))) ∧
          (∀ {σ : Type} [Database σ] (connector : Connector σ) p, accepts (a.dsn p) = true →
            connector.connectController (a.dsn p) =
              .error (.unknownDatabase (address (a.dsn p)))) ∧
          ∀ files files' vars vars' p q, SameButDsn files files' vars vars' (a.dsn p) (a.dsn q) →
            report (load files vars) = report (load files' vars') ∨
              load files vars = .error (.dsn (.unknownDatabase (address (a.dsn p)))) ∧
                load files' vars' = .error (.dsn (.unknownDatabase (address (a.dsn q))))) := by
  refine ⟨a.hides_describe, fun k hk => ?_, fun h => ⟨a.validate_of_unknown h,
    fun connector p => connectController_of_unknown connector ((a.ofUrl?_address p).trans h), ?_⟩⟩
  · have h : a.kind? ≠ none := by simp [hk]
    refine ⟨a.hides_validate h, fun connector => ⟨fun p => ?_, a.hides_connectController h⟩, ?_⟩
    · exact connectController_of_known connector ((a.ofUrl?_address p).trans hk)
    · intro files files' vars vars' p q hp hq hsources
      exact a.report_load h hp hq hsources
  · intro files files' vars vars' p q hsources
    -- the address is quoted only if nothing has failed before it is checked
    rcases hsources.load_cases with ⟨e, he, he'⟩ | ⟨smart, auto, hload, hload'⟩
    · exact .inl (by rw [he, he'])
    · rw [hload, hload', checked, checked, a.validate_of_unknown h, a.validate_of_unknown h]
      exact .inr ⟨rfl, rfl⟩

/-- Passwords of a server that is known: the port is refused in the same words, and so is a connection
by a library that does not find the server. -/
theorem bad_port_hides_password :
    let a : Account := {
      marked := true, scheme := "postgres".toList, user := "u".toList, rest := "h:0/db".toList,
      isScheme := ⟨rfl, List.all_eq_true.1 rfl⟩, isUser := ⟨List.all_eq_true.1 rfl, by decide⟩ }
    let files : Files := fun _ => .error .notFound
    let vars (p : String) : Variables := { dsn := a.dsn p.toList }
    let connector : Connector Store := fun _ => .error (.unreachable "the name h is not known")
    a.dsn "secret".toList = "smartcommit:postgres://u:secret@h:0/db" ∧ a.kind? = some .postgres ∧
      Url.IsPassword "secret".toList ∧ Url.IsPassword "other".toList ∧
      SameButDsn files files (vars "secret") (vars "other") (a.dsn "secret".toList)
        (a.dsn "other".toList) ∧
      report (load files (vars "secret")) = report (load files (vars "other")) ∧
      connector.connectController (a.dsn "secret".toList) =
        .error (.notConnected "the name h is not known") ∧
      Hides fun p => connector.connectController (a.dsn p) := by
  intro a files vars connector
  have hkind : a.kind? = some .postgres := by decide +kernel
  have hp : Url.IsPassword "secret".toList := ⟨by decide, List.all_eq_true.1 rfl⟩
  have hq : Url.IsPassword "other".toList := ⟨by decide, List.all_eq_true.1 rfl⟩
  have hsources : SameButDsn files files (vars "secret") (vars "other") (a.dsn "secret".toList)
      (a.dsn "other".toList) := ⟨rfl, rfl, {}, {}, rfl, rfl, rfl, rfl, rfl, rfl⟩
  obtain ⟨-, hconnect, hload⟩ := (password_hidden_if_kind_known a).2.1 .postgres hkind
  obtain ⟨hanswer, hhides⟩ := hconnect connector
  have hasks : accepts (a.dsn "secret".toList) = true := by decide +kernel
  exact ⟨by rfl, hkind, hp, hq, hsources, hload files files _ _ _ _ hp hq hsources,
    (hanswer _).trans (if_pos hasks), hhides fun _ _ _ _ => rfl⟩

/-- Two passwords of a server of an unknown kind, each quoted by the error. -/
theorem unknown_kind_quotes_password :
    let a : Account := {
      marked := false, scheme := "oracle".toList, user := "u".toList, rest := "h/db".toList,
      isScheme := ⟨rfl, List.all_eq_true.1 rfl⟩, isUser := ⟨List.all_eq_true.1 rfl, by decide⟩ }
    let text (dsn : String) : List String := match validate dsn with
      | .ok _ => []
      | .error fault => fault.chain
    Url.IsPassword "secret".toList ∧ Url.IsPassword "other".toList ∧
      text (a.dsn "secret".toList) =
        ["Unsupported database: Cannot determine database type from URL: oracle://u:secret@h/db"] ∧
      text (a.dsn "secret".toList) ≠ text (a.dsn "other".toList) := by
  intro a text
  exact ⟨⟨by decide, List.all_eq_true.1 rfl⟩, ⟨by decide, List.all_eq_true.1 rfl⟩,
    by decide +kernel, by decide +kernel⟩

end DeferredTx
