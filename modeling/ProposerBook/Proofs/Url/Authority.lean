/-
The authority of a web URL is read back.

Name and password are escaped, so that none of the characters that part an authority stands in
them: the first colon is the one before the password, and the at sign, of which there is only one,
ends them.  A port is written in plain digits, and only where it is not the one that the scheme has
anyway, so that it is not left out when it is read again.  The authority ends where the path
begins, since nothing in it is a slash.
-/
import ProposerBook.Proofs.Text.Decimal
import ProposerBook.Proofs.Url.Host

namespace ProposerBook

namespace Url

open PercentEncoding (Stands)

/-! ### Authorities as the reader leaves them -/

structure CanonicalAuthority (scheme : List Char) (a : Authority) : Prop where
  username : ∀ c ∈ a.username, Stands escapedInCredentials c
  password : ∀ c ∈ a.password, Stands escapedInCredentials c
  host : ∃ h, a.host = some h ∧ h.Canonical
  port : ∀ p, a.port = some p → defaultPort? scheme ≠ some p

theorem stands_of_mem_credentials (cs : List Char) :
    (∀ c ∈ (credentials cs).1, Stands escapedInCredentials c) ∧
      ∀ c ∈ (credentials cs).2, Stands escapedInCredentials c := by
  have hescapes : PercentEncoding.escapeChars.Forall (Stands escapedInCredentials) := by decide
  exact ⟨fun c hc => PercentEncoding.stands_of_mem_encode hescapes hc,
    fun c hc => PercentEncoding.stands_of_mem_encode hescapes hc⟩

theorem port_named {scheme cs rest : List Char} {p? : Option UInt16}
    (read : port scheme cs = .ok (p?, rest)) (p : UInt16) (hp : p? = some p) :
    defaultPort? scheme ≠ some p := by
  unfold port at read
  split at read
  · rename_i ds
    obtain ⟨x, -, hend⟩ := bind_eq_ok_iff.mp read
    cases hend
    split at hp
    · cases hp
    · rename_i hnamed
      cases hp
      exact fun hdefault => hnamed (Or.inr hdefault)
  · cases read
    cases hp

/-- Credentials, what comes after them, and whether there is nothing before their at sign. -/
def parted (before : List Char) : List Char × List Char × Bool :=
  match splitAtLast? '@' before with
  | none => ([], before, false)
  | some (user, rest) => (user, rest, user.isEmpty)

theorem splitAtLast?_subset {x : Char} {cs l r : List Char}
    (h : splitAtLast? x cs = some (l, r)) : r ⊆ cs := by
  induction cs generalizing l r with
  | nil => cases h
  | cons c cs ih =>
    unfold splitAtLast? at h
    cases hcs : splitAtLast? x cs with
    | some p =>
      rw [hcs] at h
      cases h
      exact List.subset_cons_of_subset c (ih hcs)
    | none =>
      rw [hcs] at h
      dsimp only at h
      split at h
      · cases h
        exact List.subset_cons_self c cs
      · cases h

theorem parted_subset (before : List Char) : (parted before).2.1 ⊆ before := by
  unfold parted
  split
  · exact List.Subset.refl before
  · exact splitAtLast?_subset ‹_›

/-- Reads a host in the way of a scheme. -/
def hostOf (kind : SchemeKind) (cs : List Char) : Except UrlError (Option Host) :=
  match kind with
  | .other => plainHost cs
  | _ => if cs.isEmpty then .error .emptyHost else (specialHost cs).map some

/-- What is read of an authority once its credentials are parted from the rest. -/
def authorityOf (scheme : List Char) (user rest after : List Char) :
    Except UrlError (Authority × List Char) :=
  (hostOf (schemeKind scheme) (splitHost false rest).1).bind fun host =>
    if host.isNone && (splitHost false rest).2.head? = some ':' then .error .emptyHost
    else
      (port scheme ((splitHost false rest).2 ++ after)).bind fun x =>
        if host.isNone && !((credentials user).1.isEmpty && (credentials user).2.isEmpty) then
          .error .emptyHost
        else
          .ok ({ username := (credentials user).1, password := (credentials user).2, host,
                 port := x.1 }, x.2)

/-- How an authority is read. -/
theorem parseAuthority_eq (scheme cs : List Char) : parseAuthority scheme cs =
    let before := cs.takeWhile fun c => !endsAuthority (schemeKind scheme) c
    let after := cs.dropWhile fun c => !endsAuthority (schemeKind scheme) c
    if (parted before).2.2 && (parted before).2.1.isEmpty && !after.isEmpty then .error .emptyHost
    else authorityOf scheme (parted before).1 (parted before).2.1 after := by
  unfold parseAuthority authorityOf
  dsimp only
  generalize schemeKind scheme = kind
  generalize cs.takeWhile (fun c => !endsAuthority kind c) = before
  generalize cs.dropWhile (fun c => !endsAuthority kind c) = after
  unfold parted hostOf
  rcases splitAtLast? '@' before with _ | ⟨user, rest⟩
  all_goals
    dsimp only
    split
    · rfl
    generalize port scheme ((splitHost false _).2 ++ after) = y
    generalize specialHost (splitHost false _).1 = x
    generalize plainHost (splitHost false _).1 = z
    cases kind with
    | other =>
      cases z with
      | error e => rfl
      | ok host => cases y <;> rfl
    | web =>
      dsimp only
      split
      · rfl
      cases x with
      | error e => rfl
      | ok host => cases y <;> rfl
    | file =>
      dsimp only
      split
      · rfl
      cases x with
      | error e => rfl
      | ok host => cases y <;> rfl

/-- What was read as an authority has the credentials, the host and the port that were read. -/
theorem exists_of_parseAuthority {scheme cs rest : List Char} {a : Authority}
    (read : parseAuthority scheme cs = .ok (a, rest)) :
    ∃ user text after, text ⊆ cs ∧ after ⊆ cs ∧ (a.username, a.password) = credentials user ∧
      hostOf (schemeKind scheme) (splitHost false text).1 = .ok a.host ∧
      port scheme ((splitHost false text).2 ++ after) = .ok (a.port, rest) := by
  rw [parseAuthority_eq] at read
  dsimp only at read
  have hbefore : cs.takeWhile (fun c => !endsAuthority (schemeKind scheme) c) ⊆ cs :=
    (List.takeWhile_sublist _).subset
  generalize cs.takeWhile (fun c => !endsAuthority (schemeKind scheme) c) = before at read hbefore
  split at read
  · cases read
  obtain ⟨host, hhost, hmore⟩ := bind_eq_ok_iff.mp read
  split at hmore
  · cases hmore
  obtain ⟨x, hport, hend⟩ := bind_eq_ok_iff.mp hmore
  split at hend
  · cases hend
  cases hend
  exact ⟨_, _, _, List.Subset.trans (parted_subset before) hbefore,
    (List.dropWhile_sublist _).subset, rfl, hhost, hport⟩

/-- **What is read as an authority is one that the reader leaves.** -/
theorem canonical_of_parseAuthority {scheme cs rest : List Char} {a : Authority}
    (web : schemeKind scheme = .web) (read : parseAuthority scheme cs = .ok (a, rest)) :
    CanonicalAuthority scheme a := by
  obtain ⟨user, text, after, -, -, hcredentials, hhost, hport⟩ := exists_of_parseAuthority read
  obtain ⟨husername, hpassword⟩ := stands_of_mem_credentials user
  rw [← hcredentials] at husername hpassword
  refine ⟨husername, hpassword, ?_, port_named hport⟩
  rw [web] at hhost
  unfold hostOf at hhost
  dsimp only at hhost
  split at hhost
  · cases hhost
  · obtain ⟨h, hread, hsome⟩ := map_eq_ok_iff.mp hhost
    exact ⟨h, hsome.symm, canonical_of_specialHost hread⟩

/-! ### Reading credentials again -/

theorem splitAtLast?_of_not_mem {x : Char} {cs : List Char} (h : x ∉ cs) :
    splitAtLast? x cs = none := by
  induction cs with
  | nil => rfl
  | cons c cs ih =>
    rw [List.mem_cons, not_or] at h
    obtain ⟨hc, hcs⟩ := h
    unfold splitAtLast?
    rw [ih hcs]
    exact if_neg (by simpa using fun heq : c = x => hc heq.symm)

theorem splitAtLast?_append {x : Char} {l r : List Char} (h : x ∉ r) :
    splitAtLast? x (l ++ x :: r) = some (l, r) := by
  induction l with
  | nil =>
    rw [List.nil_append, splitAtLast?, splitAtLast?_of_not_mem h]
    exact if_pos (beq_self_eq_true x)
  | cons c l ih =>
    rw [List.cons_append, splitAtLast?, ih]

theorem credentials_of_stands {username password : List Char}
    (husername : ∀ c ∈ username, Stands escapedInCredentials c)
    (hpassword : ∀ c ∈ password, Stands escapedInCredentials c) :
    credentials (username ++ (if password.isEmpty then [] else ':' :: password)) =
      (username, password) := by
  have hname : ∀ c ∈ username, (c != ':') = true := by
    intro c hc
    rw [bne_iff_ne]
    rintro rfl
    exact absurd (husername ':' hc).2 (by decide)
  have hfront : ∀ rest : List Char, rest = [] ∨ rest.head? = some ':' →
      (username ++ rest).takeWhile (· != ':') = username ∧
        (username ++ rest).dropWhile (· != ':') = rest := by
    intro rest hrest
    rw [List.takeWhile_append_of_pos hname, List.dropWhile_append_of_pos hname]
    cases rest with
    | nil => simp
    | cons c cs =>
      obtain rfl : c = ':' := by simpa using hrest
      simp
  unfold credentials
  by_cases hempty : password = []
  · subst hempty
    obtain ⟨htake, hdrop⟩ := hfront [] (Or.inl rfl)
    rw [List.isEmpty_nil, if_pos rfl, htake, hdrop, PercentEncoding.encode_of_stands husername]
    rfl
  · obtain ⟨htake, hdrop⟩ := hfront (':' :: password) (Or.inr rfl)
    have hsome : password.isEmpty = false := by
      rw [List.isEmpty_eq_false_iff]
      exact hempty
    rw [hsome, if_neg Bool.false_ne_true, htake, hdrop, PercentEncoding.encode_of_stands husername,
      List.drop_one, List.tail_cons, PercentEncoding.encode_of_stands hpassword]

/-! ### Reading a port again -/

theorem readPort_digits {cs : List Char} (rest : List Char) (n : Nat)
    (digits : ∀ c ∈ cs, c.isDigit = true) (fits : Nat.ofDigitChars 10 cs n ≤ 65535) :
    readPort n (cs ++ '/' :: rest) = .ok (Nat.ofDigitChars 10 cs n, '/' :: rest) := by
  induction cs generalizing n with
  | nil => rfl
  | cons c cs ih =>
    obtain ⟨hc, hcs⟩ := List.forall_mem_cons.mp digits
    have hdigit : '0' ≤ c ∧ c ≤ '9' := by
      have hbounds := Char.isDigit_iff_toNat.mp hc
      exact ⟨UInt32.le_iff_toNat_le.mpr hbounds.1, UInt32.le_iff_toNat_le.mpr hbounds.2⟩
    rw [Nat.ofDigitChars_cons] at fits ⊢
    have hmore := Decimal.le_ofDigitChars cs (10 * n + (c.toNat - '0'.toNat))
    rw [List.cons_append, readPort, if_pos hdigit]
    dsimp only
    rw [if_pos (by omega), Nat.mul_comm n 10]
    exact ih _ hcs fits

/-- A port that is named is read back. -/
theorem port_portChars {scheme : List Char} {a : Authority}
    (named : ∀ p, a.port = some p → defaultPort? scheme ≠ some p) (rest : List Char) :
    port scheme (a.portChars ++ '/' :: rest) = .ok (a.port, '/' :: rest) := by
  unfold Authority.portChars
  cases hport : a.port with
  | none => rfl
  | some p =>
    have hfits : Nat.ofDigitChars 10 (Nat.toDigits 10 p.toNat) 0 ≤ 65535 := by
      have hp := p.toNat_lt
      rw [Nat.ofDigitChars_toDigits (by decide) (by decide)]
      omega
    have hread := readPort_digits rest 0 Decimal.isDigit_of_mem_toDigits hfits
    rw [Nat.ofDigitChars_toDigits (by decide) (by decide)] at hread
    have hchars : (toString p.toNat).toList = Nat.toDigits 10 p.toNat := by
      rw [Nat.toString_eq_repr, Nat.toList_repr]
    have hsome := List.length_pos_iff.mpr (Nat.toDigits_ne_nil (b := 10) (n := p.toNat))
    have hkept : ¬(('/' :: rest).length = (Nat.toDigits 10 p.toNat ++ '/' :: rest).length ∨
        defaultPort? scheme = some (UInt16.ofNat p.toNat)) := by
      rw [List.length_append, UInt16.ofNat_toNat]
      rintro (hlength | hdefault)
      · omega
      · exact named p hport hdefault
    dsimp only
    rw [hchars, List.cons_append]
    refine bind_eq_ok_iff.mpr ⟨_, hread, ?_⟩
    dsimp only
    rw [if_neg hkept, UInt16.ofNat_toNat]
    rfl

/-! ### Reading an authority again -/

/-- A character that may stand in an authority. -/
def InAuthority (c : Char) : Prop := 0x20 < c.toNat ∧ endsAuthority .web c = false

instance (c : Char) : Decidable (InAuthority c) := inferInstanceAs (Decidable (_ ∧ _))

theorem inAuthority_of_stands {c : Char} (h : Stands escapedInCredentials c) :
    InAuthority c ∧ c ≠ '@' := by
  have hascii := h.1
  revert h
  exact char_of_lt c hascii (by decide +kernel)

theorem inAuthority_of_mem_host {h : Host} (canonical : h.Canonical) {c : Char}
    (hc : c ∈ h.toChars) : InAuthority c ∧ c ≠ '@' := by
  obtain ⟨hascii, hfine⟩ := canonical.mem_toChars hc
  revert hfine
  exact char_of_lt c hascii (by decide +kernel)

theorem inAuthority_of_mem_portChars {a : Authority} {c : Char} (hc : c ∈ a.portChars) :
    InAuthority c ∧ c ≠ '@' := by
  have hdigits : ∀ d < 10, InAuthority (Nat.digitChar d) ∧ Nat.digitChar d ≠ '@' := by decide
  unfold Authority.portChars at hc
  split at hc
  · cases hc
  · rcases List.mem_cons.mp hc with rfl | hc
    · decide
    · rw [Nat.toString_eq_repr, Nat.toList_repr] at hc
      obtain ⟨d, hd, rfl⟩ := Ipv4.exists_digitChar_of_mem_toDigits (by decide) hc
      exact hdigits d hd

section Reading

variable {scheme : List Char} {a : Authority}

theorem inAuthority_of_mem_credentials (canonical : CanonicalAuthority scheme a) {c : Char}
    (hc : c ∈ a.credentials) : InAuthority c := by
  unfold Authority.credentials at hc
  rcases List.mem_append.mp hc with hc | hc
  · rcases List.mem_append.mp hc with hc | hc
    · exact (inAuthority_of_stands (canonical.username c hc)).1
    · split at hc
      · cases hc
      · rcases List.mem_cons.mp hc with rfl | hc
        · decide
        · exact (inAuthority_of_stands (canonical.password c hc)).1
  · split at hc
    · cases hc
    · rw [List.mem_singleton.mp hc]
      decide

/-- The text of an authority is its credentials, its host and its port. -/
theorem CanonicalAuthority.exists_host (canonical : CanonicalAuthority scheme a) :
    ∃ h, a.host = some h ∧ h.Canonical ∧ a.toChars = a.credentials ++ (h.toChars ++ a.portChars) ∧
      h.toChars ≠ [] := by
  obtain ⟨h, hhost, hcanonical⟩ := canonical.host
  refine ⟨h, hhost, hcanonical, ?_, ?_⟩
  · unfold Authority.toChars
    rw [hhost, List.append_assoc]
    rfl
  · intro hnil
    have hread := specialHost_toChars hcanonical
    rw [hnil] at hread
    cases hread

theorem inAuthority_of_mem (canonical : CanonicalAuthority scheme a) {c : Char}
    (hc : c ∈ a.toChars) : InAuthority c := by
  obtain ⟨h, -, hcanonical, htext, -⟩ := canonical.exists_host
  rw [htext] at hc
  rcases List.mem_append.mp hc with hc | hc
  · exact inAuthority_of_mem_credentials canonical hc
  · rcases List.mem_append.mp hc with hc | hc
    · exact (inAuthority_of_mem_host hcanonical hc).1
    · exact (inAuthority_of_mem_portChars hc).1

theorem CanonicalAuthority.toChars_ne_nil (canonical : CanonicalAuthority scheme a) :
    a.toChars ≠ [] := by
  obtain ⟨h, -, -, htext, hsome⟩ := canonical.exists_host
  rw [htext]
  simp [hsome]

theorem isSlash_of_mem (canonical : CanonicalAuthority scheme a) {c : Char} (hc : c ∈ a.toChars) :
    isSlash .web c = false :=
  (Bool.or_eq_false_iff.mp (inAuthority_of_mem canonical hc).2).1

/-- No slash stands before the authority. -/
theorem dropWhile_isSlash_toChars (canonical : CanonicalAuthority scheme a) (rest : List Char) :
    (a.toChars ++ rest).dropWhile (isSlash .web) = a.toChars ++ rest := by
  obtain ⟨c, cs, hcs⟩ := List.exists_cons_of_ne_nil canonical.toChars_ne_nil
  have hslash := isSlash_of_mem canonical (hcs ▸ List.mem_cons_self)
  rw [hcs, List.cons_append]
  exact List.dropWhile_cons_of_neg (by simp [hslash])

/-- The credentials are parted from the rest where they end. -/
theorem exists_parted (canonical : CanonicalAuthority scheme a) {rest : List Char}
    (plain : '@' ∉ rest) : ∃ user, parted (a.credentials ++ rest) = (user, rest, false) ∧
      credentials user = (a.username, a.password) := by
  by_cases hnone : (a.username.isEmpty && a.password.isEmpty) = true
  · obtain ⟨husername, hpassword⟩ := Bool.and_eq_true_iff.mp hnone
    rw [List.isEmpty_iff] at husername hpassword
    have htext : a.credentials = [] := by
      unfold Authority.credentials
      rw [husername, hpassword]
      rfl
    refine ⟨[], ?_, ?_⟩
    · unfold parted
      rw [htext, List.nil_append, splitAtLast?_of_not_mem plain]
    · rw [husername, hpassword]
      rfl
  · have htext : a.credentials = a.username ++
        (if a.password.isEmpty then [] else ':' :: a.password) ++ ['@'] := by
      unfold Authority.credentials
      rw [if_neg hnone]
    refine ⟨_, ?_, credentials_of_stands canonical.username canonical.password⟩
    have hsome : (a.username ++
        (if a.password.isEmpty then [] else ':' :: a.password)).isEmpty = false := by
      rw [List.isEmpty_eq_false_iff]
      intro hnil
      obtain ⟨husername, hpassword⟩ := List.append_eq_nil_iff.mp hnil
      split at hpassword
      · rename_i hempty
        exact hnone (by rw [husername, hempty]; rfl)
      · cases hpassword
    unfold parted
    rw [htext, List.append_assoc, List.singleton_append, splitAtLast?_append plain]
    dsimp only
    rw [hsome]

/-- **An authority is read back** before a path. -/
theorem parseAuthority_toChars (web : schemeKind scheme = .web)
    (canonical : CanonicalAuthority scheme a) (cs : List Char) :
    parseAuthority scheme (a.toChars ++ '/' :: cs) = .ok (a, '/' :: cs) := by
  obtain ⟨h, hhost, hcanonical, htext, hsome⟩ := canonical.exists_host
  have hgoes : ∀ c ∈ a.toChars, (!endsAuthority .web c) = true := by
    intro c hc
    rw [(inAuthority_of_mem canonical hc).2]
    rfl
  have hbefore : (a.toChars ++ '/' :: cs).takeWhile (fun c => !endsAuthority .web c) =
      a.toChars := by
    rw [List.takeWhile_append_of_pos hgoes, List.takeWhile_cons_of_neg (by decide),
      List.append_nil]
  have hafter : (a.toChars ++ '/' :: cs).dropWhile (fun c => !endsAuthority .web c) =
      '/' :: cs := by
    rw [List.dropWhile_append_of_pos hgoes, List.dropWhile_cons_of_neg (by decide)]
  have hplain : '@' ∉ h.toChars ++ a.portChars := by
    intro hat
    rcases List.mem_append.mp hat with hat | hat
    · exact (inAuthority_of_mem_host hcanonical hat).2 rfl
    · exact (inAuthority_of_mem_portChars hat).2 rfl
  have hport : FromPort a.portChars := by
    unfold Authority.portChars
    cases a.port with
    | none => exact Or.inl rfl
    | some p => exact Or.inr ⟨_, rfl⟩
  obtain ⟨user, hparted, huser⟩ := exists_parted canonical hplain
  have hhostText := splitHost_toChars hcanonical hport
  have hfilled : h.toChars.isEmpty = false := by
    rw [List.isEmpty_eq_false_iff]
    exact hsome
  have hauthority : authorityOf scheme user (h.toChars ++ a.portChars) ('/' :: cs) =
      .ok (a, '/' :: cs) := by
    unfold authorityOf hostOf
    rw [hhostText, huser, web]
    dsimp only
    rw [hfilled, specialHost_toChars hcanonical]
    show (port scheme (a.portChars ++ '/' :: cs)).bind _ = _
    have hown : (⟨a.username, a.password, some h, a.port⟩ : Authority) = a := by rw [← hhost]
    rw [port_portChars canonical.port]
    show Except.ok ((⟨a.username, a.password, some h, a.port⟩ : Authority), '/' :: cs) = _
    rw [hown]
  rw [parseAuthority_eq, web]
  dsimp only
  rw [hbefore, hafter, htext, hparted]
  exact hauthority

end Reading

end Url

end ProposerBook
