import DeferredTx.Proofs.Statement.Finish
import DeferredTx.Proofs.Statement.LetterCase
import DeferredTx.Settings.Basic

/-!
# Where settings come from

Each of the three settings has three sources: a variable of the environment, the settings file, and a
default. They are merged setting by setting, and only the address that comes out is checked.

* `Switch.Means`, `Switch.read_eq_ok_iff`: the texts that are read as a switch.
* `Settings.FileSays`, `Settings.SwitchSays`: what a file and a variable say, if they can be read.
* `Settings.Wins`, `Settings.Determines`: the first source that has a word on a setting, and the
  settings that all sources give.
* `Settings.checked`, `Settings.load_of_determines`: what is left to do is to check the address.
* `Settings.first_source_wins`: **when settings are loaded, and which.**
-/

namespace DeferredTx

open Text

namespace Switch

/-- The words for a switch. -/
def wordsFor : Bool → List String
  | true => ["true", "1", "on", "yes"]
  | false => ["false", "0", "off", "no"]

/-- A text that means a switch: one of its words in any case, with blanks around it. -/
def Means (text : String) (on : Bool) : Prop :=
  ∃ front word tail, text.toList = front ++ word ++ tail ∧ front.all isBlank = true ∧
    tail.all isBlank = true ∧ ∃ w ∈ wordsFor on, sameFold word w.toList = true

theorem find?_words {w : String} {on : Bool} (h : w ∈ wordsFor on) :
    (words.find? fun p => p.1 == w) = some (w, on) := by
  have hall : ∀ on, ∀ w ∈ wordsFor on, (words.find? fun p => p.1 == w) = some (w, on) := by
    decide
  exact hall on w h

theorem mem_wordsFor {p : String × Bool} (h : p ∈ words) : p.1 ∈ wordsFor p.2 := by
  revert p
  decide

theorem fold_word {w : String} {on : Bool} (h : w ∈ wordsFor on) : fold w.toList = w.toList := by
  have hall : ∀ on, ∀ w ∈ wordsFor on, fold w.toList = w.toList := by
    decide
  exact hall on w h

/-- A word has no blanks in it, in any case. -/
theorem trim_of_fold {w : String} {on : Bool} (hw : w ∈ wordsFor on) {word : List Char}
    (h : fold word = w.toList) : trim word = word := by
  have hall : ∀ on, ∀ w ∈ wordsFor on, w.toList.all (fun c => !isBlank c) = true := by
    decide
  refine Statement.trim_of_solid fun c hc => ?_
  have hmem : c.toLower ∈ w.toList := h ▸ List.mem_map_of_mem hc
  have hlower := List.all_eq_true.1 (hall on w hw) _ hmem
  rwa [Bool.not_eq_true', Statement.isBlank_toLower] at hlower

/-- **The texts that are read as a switch.** -/
theorem read_eq_ok_iff {text : String} {on : Bool} : read text = .ok on ↔ Means text on := by
  unfold read
  dsimp only
  constructor
  · intro h
    split at h
    · rename_i w hfind
      obtain rfl : w.2 = on := Except.ok.inj h
      have hmem : w.1 ∈ wordsFor w.2 := mem_wordsFor (List.mem_of_find?_eq_some hfind)
      have hvalue : w.1 = String.ofList (fold (trim text.toList)) := by
        simpa using List.find?_some hfind
      have hword : fold (trim text.toList) = w.1.toList := by
        rw [hvalue, String.toList_ofList]
      obtain ⟨tail, htail, htails, -⟩ := Statement.exists_of_trimEnd (text.toList.dropWhile isBlank)
      refine ⟨text.toList.takeWhile isBlank, trim text.toList, tail, ?_, List.all_takeWhile, htails,
        w.1, hmem, ?_⟩
      · rw [List.append_assoc, trim, ← htail, List.takeWhile_append_dropWhile]
      · exact beq_iff_eq.2 (hword.trans (fold_word hmem).symm)
    · cases h
  · rintro ⟨front, word, tail, htext, hfront, htail, w, hw, hsame⟩
    have hword : fold word = w.toList := (eq_of_beq hsame).trans (fold_word hw)
    have htrim : trim text.toList = word := by
      rw [htext, Statement.trim_append_blanks htail, Statement.trim_blanks_append hfront]
      exact trim_of_fold hw hword
    rw [htrim, hword, String.ofList_toList, find?_words hw]

end Switch

namespace Settings

/-- What the settings file says, if one is named: it can be read, and what is in it can be decoded. -/
inductive FileSays (files : Files) : Option String → FileSettings → Prop where
  | unnamed : FileSays files none {}
  | named {path text : String} {settings : FileSettings} : files.readText path = .ok text →
      FileSettings.read? text = some settings → FileSays files (some path) settings

/-- What a variable says, if it is set: it means a switch. -/
inductive SwitchSays : Option String → Option Bool → Prop where
  | unset : SwitchSays none none
  | set {text : String} {on : Bool} : Switch.Means text on → SwitchSays (some text) (some on)

/-- The first source with a word on a setting: the environment, the file, or else the default. -/
inductive Wins {α : Type} (fallback : α) : Option α → Option α → α → Prop where
  | environment (a : α) (file : Option α) : Wins fallback (some a) file a
  | file (a : α) : Wins fallback none (some a) a
  | fallback : Wins fallback none none fallback

/-- All sources can be read, and each setting of `s` is what its first source says. -/
inductive Determines (files : Files) (vars : Variables) (s : Settings) : Prop where
  | intro {file : FileSettings} {smart auto : Option Bool} : FileSays files vars.file file →
      SwitchSays vars.smartCommit smart → SwitchSays vars.autoCommit auto →
      Wins "sqlite::memory:" vars.dsn file.dsn s.dsn →
      Wins true smart file.smartCommit s.smartCommit →
      Wins none (auto.map some) (file.autoCommit.map some) s.autoCommit → Determines files vars s

theorem wins_iff {α : Type} {fallback a : α} {env file : Option α} :
    Wins fallback env file a ↔ a = (env <|> file).getD fallback := by
  constructor
  · rintro (_ | _ | _) <;> rfl
  · rintro rfl
    cases env with
    | some a => exact .environment a file
    | none =>
      cases file with
      | some a => exact .file a
      | none => exact .fallback

theorem readFile_eq_ok_iff {files : Files} {path : Option String} {f : FileSettings} :
    readFile files path = .ok f ↔ FileSays files path f := by
  constructor
  · intro h
    unfold readFile at h
    split at h
    · cases h
      exact .unnamed
    · split at h
      · cases h
      · rename_i path text htext
        split at h
        · rename_i settings hsettings
          cases h
          exact .named htext hsettings
        · cases h
  · rintro (_ | ⟨htext, hsettings⟩)
    · rfl
    · simp only [readFile, htext, hsettings]

theorem readSwitch_eq_ok_iff {toError : Switch.NotASwitch → SettingsError} {text : Option String}
    {on : Option Bool} : readSwitch toError text = .ok on ↔ SwitchSays text on := by
  constructor
  · intro h
    unfold readSwitch at h
    split at h
    · cases h
      exact .unset
    · split at h
      · rename_i text on hread
        cases h
        exact .set (Switch.read_eq_ok_iff.1 hread)
      · cases h
  · rintro (_ | hmeans)
    · rfl
    · simp only [readSwitch, Switch.read_eq_ok_iff.2 hmeans]

/-- Settings that are left to be checked by their address. -/
def checked (s : Settings) : Except SettingsError Settings :=
  match Dsn.validate s.dsn with
  | .error cause => .error (.dsn cause)
  | .ok _ => .ok s

theorem checked_eq_ok_iff {s s' : Settings} :
    checked s = .ok s' ↔ s = s' ∧ ∃ kind, Dsn.validate s.dsn = .ok kind := by
  unfold checked
  cases Dsn.validate s.dsn <;> simp

/-- Behind a readable file, the switches of the variables are read, and then the address is checked. -/
theorem load_of_file {files : Files} {vars : Variables} {f : FileSettings}
    (h : readFile files vars.file = .ok f) :
    load files vars = (do
      let smart ← readSwitch .smartCommit vars.smartCommit
      let auto ← readSwitch .autoCommit vars.autoCommit
      checked {
        dsn := (vars.dsn <|> f.dsn).getD ({} : Settings).dsn,
        smartCommit := (smart <|> f.smartCommit).getD ({} : Settings).smartCommit,
        autoCommit := auto <|> f.autoCommit <|> ({} : Settings).autoCommit }) := by
  unfold load checked
  rw [h]
  rfl

/-- The settings that are merged are those of the first sources. -/
theorem wins_autoCommit_iff {smart : Option Bool} {auto file : Option Bool} :
    Wins none (auto.map some) (file.map some) smart ↔
      smart = (auto <|> file <|> ({} : Settings).autoCommit) := by
  rw [wins_iff]
  cases auto <;> cases file <;> rfl

/-- What the sources determine is left to be checked. -/
theorem load_of_determines {files : Files} {vars : Variables} {s : Settings}
    (h : Determines files vars s) : load files vars = checked s := by
  obtain ⟨hfile, hsmart, hauto, hdsn, hsmarts, hautos⟩ := h
  rw [load_of_file (readFile_eq_ok_iff.2 hfile), readSwitch_eq_ok_iff.2 hsmart,
    readSwitch_eq_ok_iff.2 hauto]
  obtain ⟨dsn, smartCommit, autoCommit⟩ := s
  obtain rfl := wins_iff.1 hdsn
  obtain rfl := wins_iff.1 hsmarts
  obtain rfl := wins_autoCommit_iff.1 hautos
  rfl

/-- Nothing is loaded but what the sources determine. -/
theorem determines_of_load {files : Files} {vars : Variables} {s : Settings}
    (h : load files vars = .ok s) : Determines files vars s := by
  cases hfile : readFile files vars.file with
  | error e =>
    unfold load at h
    rw [hfile] at h
    cases h
  | ok file =>
    rw [load_of_file hfile] at h
    cases hsmart : readSwitch .smartCommit vars.smartCommit with
    | error e =>
      rw [hsmart] at h
      cases h
    | ok smart =>
      cases hauto : readSwitch .autoCommit vars.autoCommit with
      | error e =>
        rw [hsmart, hauto] at h
        cases h
      | ok auto =>
        rw [hsmart, hauto] at h
        obtain ⟨rfl, -⟩ := checked_eq_ok_iff.1 h
        exact .intro (readFile_eq_ok_iff.1 hfile) (readSwitch_eq_ok_iff.1 hsmart)
          (readSwitch_eq_ok_iff.1 hauto) (wins_iff.2 rfl) (wins_iff.2 rfl)
          (wins_autoCommit_iff.2 rfl)

/-- **The first source wins, and only the address that wins is checked.** Settings are loaded exactly if
the settings file, if one is named, can be read and decoded, both switches mean something where they
are set, and the address passes the check; each of them is then what the environment says, or else the
file, or else the default. So sources that determine the same settings load alike, and while the
environment has an address it does not matter which one the file has. -/
theorem first_source_wins (files : Files) (vars : Variables) :
    ((∃ s, load files vars = .ok s) ↔
      ∃ file dsn, FileSays files vars.file file ∧ (∃ on, SwitchSays vars.smartCommit on) ∧
        (∃ on, SwitchSays vars.autoCommit on) ∧ Wins "sqlite::memory:" vars.dsn file.dsn dsn ∧
        ∃ kind, Dsn.validate dsn = .ok kind) ∧
    (∀ s, load files vars = .ok s ↔ Determines files vars s ∧ ∃ kind, Dsn.validate s.dsn = .ok kind) ∧
    (∀ files' vars' s, Determines files vars s → Determines files' vars' s →
      load files vars = load files' vars') ∧
    ∀ files' path file dsn, vars.dsn ≠ none → FileSays files vars.file file →
      FileSays files' path { file with dsn } →
        load files' { vars with file := path } = load files vars := by
  have hload : ∀ s, load files vars = .ok s ↔
      Determines files vars s ∧ ∃ kind, Dsn.validate s.dsn = .ok kind := by
    intro s
    constructor
    · intro h
      have hs := determines_of_load h
      rw [load_of_determines hs] at h
      exact ⟨hs, (checked_eq_ok_iff.1 h).2⟩
    · rintro ⟨hs, hkind⟩
      rw [load_of_determines hs]
      exact checked_eq_ok_iff.2 ⟨rfl, hkind⟩
  refine ⟨?_, hload, fun files' vars' s h h' => ?_, fun files' path file dsn hset hfile hfile' => ?_⟩
  · constructor
    · rintro ⟨s, h⟩
      obtain ⟨⟨hfile, hsmart, hauto, hdsn, -, -⟩, hkind⟩ := (hload s).1 h
      exact ⟨_, _, hfile, ⟨_, hsmart⟩, ⟨_, hauto⟩, hdsn, hkind⟩
    · rintro ⟨file, dsn, hfile, ⟨smart, hsmart⟩, ⟨auto, hauto⟩, hdsn, hkind⟩
      exact ⟨⟨dsn, _, _⟩, (hload _).2 ⟨.intro hfile hsmart hauto hdsn (wins_iff.2 rfl)
        (wins_iff.2 rfl), hkind⟩⟩
  · rw [load_of_determines h, load_of_determines h']
  · obtain ⟨d, hd⟩ := Option.ne_none_iff_exists'.1 hset
    rw [load_of_file (readFile_eq_ok_iff.2 hfile'), load_of_file (readFile_eq_ok_iff.2 hfile), hd]
    rfl

/-- Two files whose addresses cannot be connected to, and an environment with an address of its own. -/
theorem bad_file_address_hidden :
    let text (dsn : String) : String := "\x7b\"dsn\": \"" ++ dsn ++ "\", \"auto_commit\": false\x7d"
    let files (dsn : String) : Files := fun _ => .ok (text dsn).toUTF8
    let vars : Variables := {
      file := some "settings.json", dsn := some "sqlite::memory:", smartCommit := some " Off\n" }
    let s : Settings := { dsn := "sqlite::memory:", smartCommit := false, autoCommit := some false }
    vars.dsn ≠ none ∧ FileSays (files "nope") vars.file { dsn := some "nope", autoCommit := some false } ∧
      Determines (files "nope") vars s ∧ load (files "nope") vars = .ok s ∧
      load (files "oracle://h") vars = load (files "nope") vars ∧
      load (files "nope") vars = load (fun _ => .error .notFound)
        { smartCommit := some "0", autoCommit := some "FALSE" } := by
  intro text files vars s
  have hsays : ∀ dsn, FileSettings.read? (text dsn) = some { dsn := some dsn, autoCommit := some false } →
      String.fromUTF8? (text dsn).toUTF8 = some (text dsn) →
      FileSays (files dsn) vars.file { dsn := some dsn, autoCommit := some false } := by
    intro dsn hread htext
    refine .named ?_ hread
    simp only [Files.readText, files, bind, Except.bind, htext]
    rfl
  have hnope := hsays "nope" (by decide +kernel) (by decide +kernel)
  have horacle := hsays "oracle://h" (by decide +kernel) (by decide +kernel)
  have hoff : Switch.Means " Off\n" false := Switch.read_eq_ok_iff.1 (by rfl)
  have hdetermines : Determines (files "nope") vars s :=
    .intro hnope (.set hoff) .unset (.environment _ _) (.environment _ _) (.file _)
  have hother : Determines (fun _ => .error .notFound)
      { smartCommit := some "0", autoCommit := some "FALSE" } s :=
    .intro .unnamed (.set (Switch.read_eq_ok_iff.1 (by rfl))) (.set (Switch.read_eq_ok_iff.1 (by rfl)))
      .fallback (.environment _ _) (.environment _ _)
  have hset : vars.dsn ≠ none := nofun
  have haccepted : Dsn.validate "sqlite::memory:" = .ok .sqlite := by rfl
  obtain ⟨-, hload, hsame, haddress⟩ := first_source_wins (files "nope") vars
  exact ⟨hset, hnope, hdetermines, (hload s).2 ⟨hdetermines, .sqlite, haccepted⟩,
    haddress (files "oracle://h") vars.file _ (some "oracle://h") hset hnope horacle,
    hsame _ _ s hdetermines hother⟩

end Settings
end DeferredTx
