import DeferredTx.Address.Url
import DeferredTx.Proofs.Address.Host
import DeferredTx.Proofs.SavepointName

/-!
# URLs with a password

A URL that is written with a user and a password is read into the same parts whatever the password is,
but for the password itself. Where it does not read as a URL, it does not for any password, and with the
same error.

* `Url.IsUser`, `Url.IsPassword`: what can be written as the user and as the password.
* `Url.readAuthority_password`, `Url.readFile_password`: what follows the two slashes.
* `Url.read_password`: **a URL is the same for every password**, but for the password.
* `Url.render_withPassword`: how it is written again.
-/

namespace DeferredTx.Address

open Text

namespace Url

/-- The characters that a user or a password may hold as written: no control characters, and none that
ends the part with user, host and port. -/
def isCredential (c : Char) : Bool :=
  !endsAuthority true c && !Percent.controls c

/-- What can be written as the user in front of a password. -/
structure IsUser (user : List Char) : Prop where
  credential : ∀ c ∈ user, isCredential c = true
  colon : ':' ∉ user

/-- What can be written as a password. -/
structure IsPassword (p : List Char) : Prop where
  ne_nil : p ≠ []
  credential : ∀ c ∈ p, isCredential c = true

/-- What can be written as a scheme. -/
structure IsScheme (scheme : List Char) : Prop where
  head : scheme.head?.any Char.isAlpha = true
  chars : ∀ c ∈ scheme, isSchemeChar c = true

/-- What is known of a URL that is written with a scheme, two slashes, a user and a password. -/
structure Written (scheme user : List Char) (u : Url) : Prop where
  slashes : u.hasAuthority = true
  host : u.hasHost = true
  scheme_eq : u.scheme = fold scheme
  scheme_ne_file : u.scheme ≠ fileScheme
  user_eq : u.user = Percent.encode Percent.userChars user

/-- The URL with a password. -/
def withPassword (secret : List Char) (u : Url) : Url :=
  { u with password := some secret }

variable {scheme user p : List Char}

theorem not_endsAuthority {c : Char} (h : isCredential c = true) (special : Bool) :
    endsAuthority special c = false := by
  simp only [isCredential, endsAuthority, Bool.true_and, Bool.and_eq_true, Bool.not_eq_true',
    Bool.or_eq_false_iff] at h ⊢
  refine ⟨h.1.1, ?_⟩
  rw [h.1.2, Bool.and_false]

section Inside

/-- User and password with their marks lie inside of the part with user, host and port. -/
theorem inside_credentials (huser : IsUser user) (hp : IsPassword p) (special : Bool) :
    ∀ c ∈ user ++ ':' :: (p ++ ['@']), (!endsAuthority special c) = true := by
  have hmark : ∀ c, c = ':' ∨ c = '@' → endsAuthority special c = false := by
    rintro c (rfl | rfl) <;> cases special <;> rfl
  intro c hc
  have hends : endsAuthority special c = false := by
    rcases List.mem_append.1 hc with hmem | hmem
    · exact not_endsAuthority (huser.credential c hmem) special
    rcases List.mem_cons.1 hmem with rfl | hmem
    · exact hmark _ (.inl rfl)
    rcases List.mem_append.1 hmem with hmem | hmem
    · exact not_endsAuthority (hp.credential c hmem) special
    · exact hmark _ (.inr (List.mem_singleton.1 hmem))
  rw [hends]
  rfl

theorem credentials_append (user p rest : List Char) :
    user ++ ':' :: (p ++ '@' :: rest) = (user ++ ':' :: (p ++ ['@'])) ++ rest := by
  simp

theorem takeWhile_credentials (huser : IsUser user) (hp : IsPassword p) (special : Bool)
    (rest : List Char) :
    (user ++ ':' :: (p ++ '@' :: rest)).takeWhile (fun c => !endsAuthority special c) =
      (user ++ ':' :: p) ++ '@' :: rest.takeWhile fun c => !endsAuthority special c := by
  rw [credentials_append, List.takeWhile_append_of_pos (inside_credentials huser hp special)]
  simp

theorem dropWhile_credentials (huser : IsUser user) (hp : IsPassword p) (special : Bool)
    (rest : List Char) :
    (user ++ ':' :: (p ++ '@' :: rest)).dropWhile (fun c => !endsAuthority special c) =
      rest.dropWhile fun c => !endsAuthority special c := by
  rw [credentials_append, List.dropWhile_append_of_pos (inside_credentials huser hp special)]

end Inside

section Authority

/-- What is read behind a user and a password. With these there has to be a host. -/
def readPlace (scheme user place tail : List Char) : Except UrlError Url :=
  let special := isSpecial scheme
  let cut := spanHost false place
  if cut.1.isEmpty then .error .emptyHost
  else do
    let host ← Host.read special cut.1
    let (port, left) ← match cut.2 with
      | [] => .ok (none, [])
      | _ :: digits => readPort digits
    let usual := webPorts.any fun w => w.1 == scheme && some w.2 == port
    let path (cs : List Char) : List Char :=
      if cs.isEmpty && !special then [] else readPath special cs
    .ok (withTail
      { scheme, user, hasAuthority := true, host := some host, port := if usual then none else port }
      path (left ++ tail))

/-- What is known of a URL with a user and a password before its path is read. -/
theorem readPlace_eq_ok {place tail : List Char} {u : Url}
    (h : readPlace scheme user place tail = .ok u) :
    u.hasAuthority = true ∧ u.hasHost = true ∧ u.scheme = scheme ∧ u.user = user := by
  unfold readPlace at h
  dsimp only at h
  split at h
  · cases h
  · rename_i hempty
    cases hhost : Host.read (isSpecial scheme) (spanHost false place).1 with
    | error e => simp [hhost, bind, Except.bind] at h
    | ok host =>
      have hrender : host.render.isEmpty = false :=
        List.isEmpty_eq_false_iff.2 (Host.render_ne_nil (by simpa using hempty) hhost)
      simp only [hhost, bind, Except.bind] at h
      split at h
      · cases h
        exact ⟨rfl, by simp [hasHost, withTail, hrender], rfl, rfl⟩
      · split at h
        · cases h
        · cases h
          exact ⟨rfl, by simp [hasHost, withTail, hrender], rfl, rfl⟩

/-- The end of the password and the place behind it: the last at sign ends the password. -/
theorem readAuthority_password (scheme : List Char) (huser : IsUser user) (rest : List Char) :
    ∃ more place tail, ∀ p, IsPassword p →
      readAuthority scheme (user ++ ':' :: (p ++ '@' :: rest)) =
        (readPlace scheme (Percent.encode Percent.userChars user) place tail).map
          (withPassword (Percent.encode Percent.userChars (p ++ more))) := by
  let inside : Char → Bool := fun c => !endsAuthority (isSpecial scheme) c
  -- an at sign in `rest` makes what is in front of it part of the password
  obtain ⟨more, place, hcut⟩ : ∃ more place, ∀ front,
      splitAtLast? '@' (front ++ '@' :: rest.takeWhile inside) = some (front ++ more, place) := by
    cases hlast : splitAtLast? '@' (rest.takeWhile inside) with
    | none => exact ⟨[], rest.takeWhile inside, fun front => by simp [splitAtLast?_mark, hlast]⟩
    | some cut => exact ⟨'@' :: cut.1, cut.2, fun front => by simp [splitAtLast?_mark, hlast]⟩
  refine ⟨more, place, rest.dropWhile inside, fun p hp => ?_⟩
  have hnot : ((user ++ ':' :: p) ++ '@' :: rest.takeWhile inside == ['@']) = false := by
    cases user <;> simp
  have hread : readUser ((user ++ ':' :: p) ++ more) = (Percent.encode Percent.userChars user,
      some (Percent.encode Percent.userChars (p ++ more))) := by
    simp [readUser, List.append_assoc, splitAtFirst?_mark huser.colon, hp.ne_nil]
  unfold readAuthority readPlace
  simp only [takeWhile_credentials huser hp, dropWhile_credentials huser hp, inside] at hcut hnot ⊢
  simp only [hcut, hnot, hread, Bool.and_false, Bool.false_eq_true, if_false]
  cases spanHost false place with
  | mk hostText behind =>
    dsimp only
    split
    · simp [Except.map]
      rfl
    · cases Host.read (isSpecial scheme) hostText with
      | error e => rfl
      | ok host =>
        cases behind with
        | nil => rfl
        | cons c digits =>
          -- the port is read before the parts are put together
          change Except.bind (readPort digits) _ = Except.map _ (Except.bind (readPort digits) _)
          cases readPort digits <;> rfl

theorem isDrive_of_length {cs : List Char} (h : 2 < cs.length) : isDrive cs = false := by
  unfold isDrive
  split
  · simp at h
  · rfl

/-- Under the scheme of files there is no user, and what would be one makes the host unreadable. -/
theorem readFile_password (huser : IsUser user) (rest : List Char) :
    ∃ e, ∀ p, IsPassword p →
      readFile ('/' :: '/' :: (user ++ ':' :: (p ++ '@' :: rest))) = .error e := by
  refine ⟨if user.head? = some '[' then .badIpv6 else .badDomain, fun p hp => ?_⟩
  let host : List Char := (user ++ ':' :: p) ++ '@' :: rest.takeWhile fun c => !endsAuthority true c
  have hhost : (user ++ ':' :: (p ++ '@' :: rest)).takeWhile (fun c => !endsAuthority true c) = host :=
    takeWhile_credentials huser hp true rest
  have hread : Host.read true host =
      .error (if user.head? = some '[' then .badIpv6 else .badDomain) := by
    have hhead : host.head? = some '[' ↔ user.head? = some '[' := by
      cases user <;> simp [host]
    rw [Host.read_of_at true (by simp [host])]
    simp only [hhead, if_true]
  have hlong : 2 < host.length := by
    have hp' := List.length_pos_iff.2 hp.ne_nil
    simp only [host, List.length_append, List.length_cons]
    omega
  have hdrive : isDrive host = false := isDrive_of_length hlong
  have hempty : host.isEmpty = false := by
    cases user <;> rfl
  unfold readFile
  simp only [List.take_succ_cons, List.take_zero, List.drop_succ_cons, List.drop_zero, hhost, hdrive,
    hempty, hread]
  rfl

end Authority

section Front

theorem isSchemeChar_gt {c : Char} (h : isSchemeChar c = true) : 0x20 < c.toNat := by
  have hval : 0x20 < c.val := by
    simp only [isSchemeChar, Char.isAlphanum, Bool.or_eq_true, beq_iff_eq] at h
    rcases h with (((halpha | hdigit) | rfl) | rfl) | rfl
    · rcases Savepoint.range_of_isAlpha halpha with ⟨hle, -⟩ | ⟨hle, -⟩
      · exact UInt32.lt_of_lt_of_le (by decide) hle
      · exact UInt32.lt_of_lt_of_le (by decide) hle
    · exact UInt32.lt_of_lt_of_le (by decide) (Savepoint.range_of_isDigit hdigit).1
    all_goals decide
  exact UInt32.lt_iff_toNat_lt.1 hval

theorem isCredential_ge {c : Char} (h : isCredential c = true) : 0x20 ≤ c.toNat := by
  simp only [isCredential, Percent.controls, Bool.and_eq_true, Bool.not_eq_true', Bool.or_eq_false_iff,
    decide_eq_false_iff_not, Nat.not_lt] at h
  exact h.2.1

/-- What is no control character is left alone by tidying. -/
theorem not_tidied_of_ge {c : Char} (h : 0x20 ≤ c.toNat) : c ∉ ['\t', '\n', '\r'] := by
  intro hmem
  simp only [List.mem_cons, List.not_mem_nil, or_false] at hmem
  rcases hmem with rfl | rfl | rfl <;> exact absurd h (by decide)

/-- The part of a text in front of an at sign is left alone by tidying, if there is nothing to tidy in
it. -/
theorem tidy_append (rest : List Char) : ∃ rest', ∀ front : List Char,
    (∀ c, front.head? = some c → 0x20 < c.toNat) → (∀ c ∈ front, c ∉ ['\t', '\n', '\r']) →
      tidy (front ++ '@' :: rest) = front ++ '@' :: rest' := by
  let outer : Char → Bool := fun c => c.toNat ≤ 0x20
  let keep : Char → Bool := fun c => !(c == '\t' || c == '\n' || c == '\r')
  refine ⟨((rest.reverse.dropWhile outer).reverse).filter keep, fun front hhead hkeep => ?_⟩
  have hstart : (front ++ '@' :: rest).dropWhile outer = front ++ '@' :: rest := by
    cases front with
    | nil => rfl
    | cons c front =>
      have hc : ¬outer c = true := by
        have hgt := hhead c rfl
        simp only [outer, decide_eq_true_eq]
        omega
      exact List.dropWhile_cons_of_neg hc
  -- from the right, dropping stops at the at sign at the latest
  have hend : (front ++ '@' :: rest).reverse.dropWhile outer =
      rest.reverse.dropWhile outer ++ '@' :: front.reverse := by
    rw [List.reverse_append, List.reverse_cons, List.append_assoc, List.dropWhile_append]
    split
    · rename_i hempty
      rw [List.isEmpty_iff.1 hempty]
      rfl
    · rfl
  have hfront : front.filter keep = front := by
    refine List.filter_eq_self.2 fun c hc => ?_
    have hother := hkeep c hc
    simp only [List.mem_cons, List.not_mem_nil, or_false, not_or] at hother
    simp [keep, hother]
  show (((front ++ '@' :: rest).dropWhile outer).reverse.dropWhile outer).reverse.filter keep = _
  rw [hstart, hend, List.reverse_append, List.reverse_cons, List.reverse_reverse, List.append_assoc,
    List.singleton_append, List.filter_append, hfront, List.filter_cons_of_pos rfl]

/-- In front of the at sign there is nothing to tidy. -/
theorem tidy_password (huser : IsUser user) (rest : List Char) : ∃ rest', ∀ lead p : List Char,
    lead ≠ [] → (∀ c ∈ lead, 0x20 < c.toNat) → IsPassword p →
      tidy (lead ++ (user ++ ':' :: (p ++ '@' :: rest))) =
        lead ++ (user ++ ':' :: (p ++ '@' :: rest')) := by
  obtain ⟨rest', htidy⟩ := tidy_append rest
  refine ⟨rest', fun lead p hne hlead hp => ?_⟩
  have hfront := htidy (lead ++ (user ++ ':' :: p)) ?_ ?_
  · simpa using hfront
  · intro c hc
    obtain ⟨d, lead', rfl⟩ := List.exists_cons_of_ne_nil hne
    obtain rfl : d = c := Option.some.inj hc
    exact hlead d List.mem_cons_self
  · simp only [List.forall_mem_append, List.forall_mem_cons]
    exact ⟨fun c hc => not_tidied_of_ge (Nat.le_of_lt (hlead c hc)),
      fun c hc => not_tidied_of_ge (isCredential_ge (huser.credential c hc)), by decide,
      fun c hc => not_tidied_of_ge (isCredential_ge (hp.credential c hc))⟩

theorem not_mem_of_isScheme (h : IsScheme scheme) {c : Char} (hc : isSchemeChar c = false) :
    c ∉ scheme := by
  intro hmem
  rw [h.chars c hmem] at hc
  cases hc

theorem scheme?_slash (cs : List Char) : scheme? ('/' :: cs) = none := by
  rw [scheme?, splitAtFirst?, if_neg (by decide)]
  cases splitAtFirst? ':' cs <;> rfl

/-- A text with slashes in front is no URL. -/
theorem read_slashes (huser : IsUser user) (hp : IsPassword p) (rest : List Char) :
    read (['/', '/'] ++ (user ++ ':' :: (p ++ '@' :: rest))) = .error .noScheme := by
  obtain ⟨rest', htidy⟩ := tidy_password huser rest
  unfold read
  rw [htidy ['/', '/'] p (List.cons_ne_nil _ _) (by simp) hp, List.cons_append, scheme?_slash]

/-- A text with a scheme and two slashes is read by what follows them. -/
theorem read_of_tidy (hscheme : IsScheme scheme) {text more : List Char}
    (htidy : tidy text = (scheme ++ [':', '/', '/']) ++ more)
    (hmore : ∀ c, more.head? = some c → (c == '/' || c == '\\') = false) :
    read text = if fold scheme = fileScheme then readFile ('/' :: '/' :: more)
      else readAuthority (fold scheme) more := by
  have hcolon : ':' ∉ scheme := not_mem_of_isScheme hscheme rfl
  have hall : scheme.all isSchemeChar = true := List.all_eq_true.2 hscheme.chars
  have hsplit : scheme? (tidy text) = some (fold scheme, '/' :: '/' :: more) := by
    rw [htidy, scheme?, List.append_assoc, List.cons_append, splitAtFirst?_mark hcolon]
    simp [hscheme.head, hall]
  have hdrop : ('/' :: '/' :: more).dropWhile (fun c => c == '/' || c == '\\') = more := by
    cases more with
    | nil => rfl
    | cons c more =>
      have hc := hmore c rfl
      simp [hc]
  unfold read
  rw [hsplit]
  dsimp only
  split
  · rfl
  · rw [hdrop]
    simp

end Front

/-- **A URL is the same for every password.** With a scheme and a user in front of a password, there is
an error or a URL that what is written is read as, whatever the password is; the URL has the password
that is written, and possibly what follows it up to the last at sign. -/
theorem read_password (hscheme : IsScheme scheme) (huser : IsUser user) (rest : List Char) :
    ∃ (r : Except UrlError Url) (more : List Char),
      (∀ u, r = .ok u → Written scheme user u) ∧
      ∀ p, IsPassword p → read ((scheme ++ [':', '/', '/']) ++ (user ++ ':' :: (p ++ '@' :: rest))) =
        r.map (withPassword (Percent.encode Percent.userChars (p ++ more))) := by
  obtain ⟨rest', htidy⟩ := tidy_password huser rest
  have hne : scheme ++ [':', '/', '/'] ≠ [] := by simp
  have hlead : ∀ c ∈ scheme ++ [':', '/', '/'], 0x20 < c.toNat := by
    rw [List.forall_mem_append]
    exact ⟨fun c hc => isSchemeChar_gt (hscheme.chars c hc), by simp⟩
  have hslashes : ∀ p c, (user ++ ':' :: (p ++ '@' :: rest')).head? = some c →
      (c == '/' || c == '\\') = false := by
    intro p c hc
    cases user with
    | nil =>
      obtain rfl : ':' = c := Option.some.inj hc
      rfl
    | cons d user =>
      obtain rfl : d = c := Option.some.inj hc
      have hends := not_endsAuthority (huser.credential d List.mem_cons_self) true
      simp only [endsAuthority, Bool.true_and, Bool.or_eq_false_iff] at hends
      rw [hends.1.1.1, hends.2]
      rfl
  by_cases hfile : fold scheme = fileScheme
  · obtain ⟨e, he⟩ := readFile_password huser rest'
    refine ⟨.error e, [], nofun, fun p hp => ?_⟩
    rw [read_of_tidy hscheme (htidy _ p hne hlead hp) (hslashes p), if_pos hfile, he p hp]
    rfl
  · obtain ⟨more, place, tail, hauthority⟩ := readAuthority_password (fold scheme) huser rest'
    refine ⟨readPlace (fold scheme) (Percent.encode Percent.userChars user) place tail, more,
      fun u hu => ?_, fun p hp => ?_⟩
    · obtain ⟨hslashes, hhost, hscheme', huser'⟩ := readPlace_eq_ok hu
      exact ⟨hslashes, hhost, hscheme', hscheme' ▸ hfile, huser'⟩
    · rw [read_of_tidy hscheme (htidy _ p hne hlead hp) (hslashes p), if_neg hfile, hauthority p hp]

/-- A URL with a password is written with the password in front of the at sign. -/
theorem render_withPassword {u : Url} (h : u.hasAuthority = true) :
    ∃ tail, ∀ secret, (u.withPassword secret).render =
      (u.scheme ++ ':' :: '/' :: '/' :: (u.user ++ ':' :: secret)) ++ '@' :: tail := by
  refine ⟨(u.host.map Host.render).getD [] ++ (u.port.map fun p => ':' :: Nat.toDigits 10 p).getD []
    ++ u.path ++ (u.query.map ('?' :: ·)).getD [] ++ (u.fragment.map ('#' :: ·)).getD [],
    fun secret => ?_⟩
  simp [render, renderUser, withPassword, h]

end Url

end DeferredTx.Address
