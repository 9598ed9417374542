import DeferredTx.Proofs.Address.Secrecy

/-!
# What masking shows

What does not read as a URL is redacted, and a URL with a password is written again with the mask in its
place. The prefix stays in front, and nothing else depends on it.

* `Url.setPassword?_of_written`: **a password can be set where one is written.**
* `Dsn.Account.Shows`, `Dsn.Account.mask_cases`: the masked form of a DSN with a password.
* `Dsn.mask_marker`, `Dsn.validate_marker`: a DSN behind the prefix.
* `password_masked`: **what a masked DSN shows.**
-/

namespace DeferredTx

open Address Text

/-- A password can be set where one is written. -/
theorem Address.Url.setPassword?_of_written {scheme user : List Char} {u : Url}
    (h : Url.Written scheme user u) (secret p : List Char) :
    (u.withPassword secret).setPassword? p =
      some (u.withPassword (Percent.encode Percent.userChars p)) := by
  have hhost : (u.withPassword secret).hasHost = true := h.host
  have hscheme : ((u.withPassword secret).scheme != Url.fileScheme) = true :=
    bne_iff_ne.2 h.scheme_ne_file
  unfold Url.setPassword?
  rw [hhost, hscheme]
  rfl

namespace Dsn

/-- The mask is written as it is. -/
theorem encode_masked : Percent.encode Percent.userChars masked = masked := by decide

namespace Account

variable (a : Account)

/-- The prefix that is in front of the masked form. -/
def front : String :=
  if a.marked || a.schemeTaken then marker else ""

/-- What is shown of a DSN that reads as a URL, which is `u` but for the password: the URL with the mask
in place of the password, and the same in front of the mask and behind it as with any other. -/
structure Shows (u : Url) : Prop where
  read : ∀ p, Url.IsPassword p →
    ∃ secret, Url.read (address (a.dsn p)).toList = .ok (u.withPassword secret)
  mask_eq : ∀ p, Url.IsPassword p →
    mask (a.dsn p) = a.front ++ String.ofList (u.withPassword masked).render
  render_eq : ∃ tail, ∀ secret, (u.withPassword secret).render = fold a.scheme ++ ':' :: '/' :: '/' ::
    (Percent.encode Percent.userChars a.user ++ ':' :: (secret ++ '@' :: tail))

/-- A DSN with a password is redacted if it does not read as a URL. -/
theorem mask_cases :
    (∃ e, ∀ p, Url.IsPassword p → Url.read (address (a.dsn p)).toList = .error e ∧
        mask (a.dsn p) = a.front ++ redacted) ∨
      ∃ u, a.Shows u := by
  obtain ⟨r, more, hok, hread⟩ := a.read_address
  cases r with
  | error e =>
    refine .inl ⟨e, fun p hp => ⟨hread p hp, ?_⟩⟩
    unfold mask front
    rw [accepts_dsn, hread p hp]
    rfl
  | ok u =>
    have hwritten := hok u rfl
    obtain ⟨tail, hrender⟩ := Url.render_withPassword hwritten.slashes
    refine .inr ⟨u, fun p hp => ⟨_, hread p hp⟩, fun p hp => ?_, tail, fun secret => ?_⟩
    · have hset := Url.setPassword?_of_written hwritten
        (Percent.encode Percent.userChars (p ++ more)) masked
      have hsome : (u.withPassword (Percent.encode Percent.userChars (p ++ more))).password.isSome =
        true := rfl
      unfold mask front
      rw [accepts_dsn, hread p hp]
      simp only [Except.map, hsome, hset, if_true, encode_masked]
    · rw [hrender, hwritten.scheme_eq, hwritten.user_eq]
      simp

end Account

section Marker

variable {d : String}

theorem delegate?_marker (d : String) : delegate? (marker ++ d) = some d := by
  unfold delegate?
  simp

theorem address_marker (d : String) : address (marker ++ d) = d := by
  rw [address, delegate?_marker]
  rfl

theorem address_of_not_accepts (h : accepts d = false) : address d = d := by
  unfold address
  rw [delegate?_eq_address, h]
  rfl

/-- Behind the prefix, a DSN without one is masked as it is without the prefix. -/
theorem mask_marker (h : accepts d = false) : mask (marker ++ d) = marker ++ mask d := by
  have haccepts : accepts (marker ++ d) = true := by
    rw [accepts, delegate?_marker]
    rfl
  unfold mask
  rw [address_marker, address_of_not_accepts h, haccepts, h]
  cases Url.read d.toList with
  | error e => rfl
  | ok u =>
    dsimp only
    split
    · cases u.setPassword? masked with
      | none => rfl
      | some safe => simp
    · rfl

theorem validate_marker (h : accepts d = false) : validate (marker ++ d) = validate d := by
  unfold validate
  rw [address_marker, address_of_not_accepts h]

end Marker

end Dsn

open Dsn

/-- **What a masked DSN shows** is the same for every password. It is redacted if it does not read as a
URL. Otherwise it is the URL that is read, written with its scheme, its user, the mask, and what is behind
the at sign. The prefix that asks for a controller stays in front, and neither masking nor checking
depends on it. -/
theorem password_masked :
    (∀ a : Account, Hides (fun p => mask (a.dsn p)) ∧
      ((∃ e, ∀ p, Url.IsPassword p → Url.read (address (a.dsn p)).toList = .error e ∧
          mask (a.dsn p) = a.front ++ redacted) ∨
        ∃ u, a.Shows u)) ∧
      ∀ d, accepts d = false →
        mask (marker ++ d) = marker ++ mask d ∧ validate (marker ++ d) = validate d :=
  ⟨fun a => ⟨a.hides_mask, a.mask_cases⟩, fun _ h => ⟨mask_marker h, validate_marker h⟩⟩

/-- Two passwords of one server, with the prefix and without it. -/
theorem server_password_masked :
    let a : Account := {
      marked := true, scheme := "postgres".toList, user := "u".toList, rest := "h:5432/db".toList,
      isScheme := ⟨rfl, List.all_eq_true.1 rfl⟩, isUser := ⟨List.all_eq_true.1 rfl, by decide⟩ }
    let d := "postgres://u:secret@h:5432/db"
    Url.IsPassword "secret".toList ∧ Url.IsPassword "other".toList ∧
      mask (a.dsn "secret".toList) = mask (a.dsn "other".toList) ∧
      accepts d = false ∧ a.dsn "secret".toList = marker ++ d ∧
      mask (marker ++ d) = marker ++ "postgres://u:***@h:5432/db" ∧
      validate (marker ++ d) = .ok .postgres := by
  intro a d
  have hp : Url.IsPassword "secret".toList := ⟨by decide, List.all_eq_true.1 rfl⟩
  have hq : Url.IsPassword "other".toList := ⟨by decide, List.all_eq_true.1 rfl⟩
  have hd : accepts d = false := by decide
  obtain ⟨hmask, hvalidate⟩ := password_masked.2 d hd
  refine ⟨hp, hq, (password_masked.1 a).1 _ _ hp hq, hd, by rfl, ?_, ?_⟩
  · rw [hmask]
    decide +kernel
  · rw [hvalidate]
    decide +kernel

end DeferredTx
