/-
The host of a web URL is read back.

A host is a name in its ASCII form that is no number, or an address.  The name is read as itself,
and the text of an IPv4 address is a name in ASCII form that is a number.  None of the characters
that hosts are written in ends an authority or is at home in credentials, and the colons of an IPv6
address are between brackets, so that the first colon outside brackets sets off the port.
-/
import ProposerBook.Proofs.Url.Domain
import ProposerBook.Proofs.Url.Ipv6
import ProposerBook.Url.Parse

namespace ProposerBook

open Url

/-! ### Names -/

/-- A label in ASCII that does not begin like one in Punycode is left alone. -/
theorem Domain.labelToAscii?_of_ascii {label : List Char} (ascii : ∀ c ∈ label, c.toNat < 0x80)
    (plain : 'x' ∉ label) : labelToAscii? label = some label := by
  unfold labelToAscii?
  split
  · exact absurd List.mem_cons_self plain
  · exact if_pos (isAscii_iff.mpr ascii)

/-- The text of an IPv4 address is a name in ASCII form. -/
theorem Domain.canonical_ipv4 (a : Ipv4) : Canonical a.toChars := by
  have hchar : ∀ c ∈ a.toChars, c.toNat < 0x80 ∧ Settled c ∧ isForbidden c = false ∧ c ≠ 'x' := by
    have hdigits : ∀ d < 10, (Nat.digitChar d).toNat < 0x80 ∧ Settled (Nat.digitChar d) ∧
        isForbidden (Nat.digitChar d) = false ∧ Nat.digitChar d ≠ 'x' := by decide
    intro c hc
    rcases Ipv4.mem_toChars hc with rfl | ⟨d, hd, rfl⟩
    · decide
    · exact hdigits d hd
  refine ⟨fun c hc => ?_, fun label hlabel => ?_⟩
  · obtain ⟨hascii, hsettled, hfine, -⟩ := hchar c hc
    exact ⟨hascii, hsettled, hfine⟩
  · have hmem : ∀ c ∈ label, c ∈ a.toChars := fun c hc => (Text.mem_of_mem_splitOn hlabel hc).1
    exact labelToAscii?_of_ascii (fun c hc => (hchar c (hmem c hc)).1)
      fun hx => (hchar 'x' (hmem 'x' hx)).2.2.2 rfl

/-! ### Hosts -/

/-- A host as the reader yields it. -/
inductive Host.Canonical : Host → Prop
  | domain {name : List Char} (nonempty : name ≠ []) (ascii : Domain.Canonical name)
      (plain : Ipv4.endsInNumber name = false) : Canonical (.domain name)
  | ipv4 (a : Ipv4) : Canonical (.ipv4 a)
  | ipv6 (a : Ipv6) : Canonical (.ipv6 a)

/-- Between brackets there is an address. -/
theorem canonical_of_bracketed {cs : List Char} {h : Host}
    (read : bracketed? cs = some (.ok h)) : h.Canonical := by
  unfold bracketed? at read
  split at read
  · split at read
    · split at read
      · cases read
        exact .ipv6 _
      · cases read
    · cases read
  · cases read

/-- What is read as a host is one that the reader yields. -/
theorem canonical_of_specialHost {cs : List Char} {h : Host} (read : specialHost cs = .ok h) :
    h.Canonical := by
  unfold specialHost at read
  cases hbracket : bracketed? cs with
  | some r =>
    rw [hbracket] at read
    dsimp only at read
    subst read
    exact canonical_of_bracketed hbracket
  | none =>
    rw [hbracket] at read
    dsimp only at read
    split at read
    · cases read
    · cases read
    · rename_i name hsome hascii
      by_cases hnumber : Ipv4.endsInNumber name = true
      · rw [if_pos hnumber] at read
        split at read
        · cases read
          exact .ipv4 _
        · cases read
      · rw [if_neg hnumber] at read
        cases read
        exact .domain (fun hnil => hsome (hnil ▸ rfl)) (Domain.canonical_of_toAscii? hascii)
          (Bool.eq_false_iff.mpr hnumber)

/-- A name in ASCII form is read as what it is, or as the address that it is. -/
theorem specialHost_of_canonical {name : List Char} (nonempty : name ≠ [])
    (ascii : Domain.Canonical name) :
    specialHost name = if Ipv4.endsInNumber name then
      match Ipv4.parse? name with
      | some a => .ok (.ipv4 a)
      | none => .error .invalidIpv4
    else .ok (.domain name) := by
  have hfine : ∀ {c}, Domain.isForbidden c = true → c ∉ name := by
    intro c hbad hc
    rw [(ascii.chars c hc).2.2] at hbad
    cases hbad
  have hopen : bracketed? name = none := by
    unfold bracketed?
    split
    · exact absurd List.mem_cons_self (hfine (by decide))
    · rfl
  have hdecode := PercentEncoding.decode_ofString (fun c hc => (ascii.chars c hc).1)
    (hfine (c := '%') (by decide))
  unfold specialHost
  rw [hopen, hdecode, ascii.toAscii?]
  cases name with
  | nil => exact absurd rfl nonempty
  | cons c cs => rfl

/-- **A host is read back.** -/
theorem specialHost_toChars {h : Host} (canonical : h.Canonical) :
    specialHost h.toChars = .ok h := by
  cases canonical with
  | @domain name nonempty ascii plain =>
    show specialHost name = _
    rw [specialHost_of_canonical nonempty ascii, plain]
    rfl
  | ipv4 a =>
    have hsome : a.toChars ≠ [] := by
      intro hnil
      have hnumber := a.endsInNumber_toChars
      rw [hnil] at hnumber
      cases hnumber
    show specialHost a.toChars = _
    rw [specialHost_of_canonical hsome (Domain.canonical_ipv4 a), a.endsInNumber_toChars,
      a.parse?_toChars]
    rfl
  | ipv6 a =>
    have hbracket : bracketed? (Host.ipv6 a).toChars = some (.ok (.ipv6 a)) := by
      show bracketed? ('[' :: (a.toChars ++ [']'])) = _
      simp only [bracketed?, List.getLast?_concat, if_true, List.dropLast_concat, a.parse?_toChars]
    unfold specialHost
    rw [hbracket]

/-! ### Characters of hosts -/

/-- Hosts are written in characters that may stand in a name, brackets and colons. -/
theorem Host.Canonical.mem_toChars {h : Host} (canonical : h.Canonical) {c : Char}
    (hc : c ∈ h.toChars) :
    c.toNat < 0x80 ∧ (Domain.isForbidden c = false ∨ c ∈ ['[', ':', ']']) := by
  cases canonical with
  | domain some ascii plain =>
    obtain ⟨hascii, -, hfine⟩ := ascii.chars c hc
    exact ⟨hascii, Or.inl hfine⟩
  | ipv4 a =>
    obtain ⟨hascii, -, hfine⟩ := (Domain.canonical_ipv4 a).chars c hc
    exact ⟨hascii, Or.inl hfine⟩
  | ipv6 a =>
    have hdigits : ∀ d < 16, (Nat.digitChar d).toNat < 0x80 ∧
        Domain.isForbidden (Nat.digitChar d) = false := by decide
    rcases List.mem_cons.mp hc with rfl | hc
    · decide
    · rcases List.mem_append.mp hc with hc | hc
      · rcases Ipv6.mem_toChars hc with rfl | ⟨d, hd, rfl⟩
        · decide
        · exact ⟨(hdigits d hd).1, Or.inl (hdigits d hd).2⟩
      · rw [List.mem_singleton.mp hc]
        decide

/-! ### Where the host ends -/

/-- Nothing, or a colon with what comes after it. -/
def FromPort (cs : List Char) : Prop := cs = [] ∨ ∃ ds, cs = ':' :: ds

theorem splitHost_fromPort {cs : List Char} (h : FromPort cs) : splitHost false cs = ([], cs) := by
  rcases h with rfl | ⟨ds, rfl⟩
  · rfl
  · rfl

theorem splitHost_of_plain {inside : Bool} {cs : List Char}
    (plain : ∀ c ∈ cs, (c = ':' → inside = true) ∧ c ≠ '[' ∧ c ≠ ']') (rest : List Char) :
    splitHost inside (cs ++ rest) =
      (cs ++ (splitHost inside rest).1, (splitHost inside rest).2) := by
  induction cs with
  | nil => rfl
  | cons c cs ih =>
    obtain ⟨⟨hcolon, hopens, hcloses⟩, hmore⟩ := List.forall_mem_cons.mp plain
    have hgoes : (c == ':' && !inside) = false := by
      by_cases heq : c = ':'
      · rw [hcolon heq]
        simp
      · simp [heq]
    rw [List.cons_append, splitHost, hgoes]
    simp only [Bool.false_eq_true, if_false, beq_iff_eq, hopens, hcloses]
    rw [ih hmore]
    rfl

/-- **The host ends before its port.** -/
theorem splitHost_toChars {h : Host} (canonical : h.Canonical) {rest : List Char}
    (fromPort : FromPort rest) : splitHost false (h.toChars ++ rest) = (h.toChars, rest) := by
  have hname : ∀ {name : List Char}, Domain.Canonical name →
      splitHost false (name ++ rest) = (name, rest) := by
    intro name ascii
    have hplain : ∀ c ∈ name, (c = ':' → false = true) ∧ c ≠ '[' ∧ c ≠ ']' := by
      intro c hc
      have hfine := (ascii.chars c hc).2.2
      refine ⟨?_, ?_, ?_⟩
      · rintro rfl
        cases hfine
      · rintro rfl
        cases hfine
      · rintro rfl
        cases hfine
    rw [splitHost_of_plain hplain, splitHost_fromPort fromPort, List.append_nil]
  cases canonical with
  | domain some ascii plain => exact hname ascii
  | ipv4 a => exact hname (Domain.canonical_ipv4 a)
  | ipv6 a =>
    have hdigits : ∀ d < 16, Nat.digitChar d ≠ '[' ∧ Nat.digitChar d ≠ ']' := by decide
    have hplain : ∀ c ∈ a.toChars, (c = ':' → true = true) ∧ c ≠ '[' ∧ c ≠ ']' := by
      intro c hc
      rcases Ipv6.mem_toChars hc with rfl | ⟨d, hd, rfl⟩
      · decide
      · exact ⟨fun _ => rfl, hdigits d hd⟩
    have hclosed : splitHost true (']' :: rest) = ([']'], rest) := by
      show (']' :: (splitHost false rest).1, (splitHost false rest).2) = _
      rw [splitHost_fromPort fromPort]
    have hinner := splitHost_of_plain hplain (']' :: rest)
    rw [hclosed] at hinner
    show splitHost false ('[' :: (a.toChars ++ [']']) ++ rest) = _
    rw [List.cons_append, List.append_assoc, List.singleton_append]
    show ('[' :: (splitHost true (a.toChars ++ ']' :: rest)).1,
      (splitHost true (a.toChars ++ ']' :: rest)).2) = _
    rw [hinner]
    rfl

end ProposerBook
