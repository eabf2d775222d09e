/-
The ASCII form of a domain name is its own ASCII form.

What a character is mapped to is mapped to itself: it is in lower case, and the characters that
are dropped, that separate labels or that have a usual form instead are not what any other
character is mapped to.  So the labels of a mapped name keep their characters, and with these
everything that a label is judged by.  A label that Punycode stands for is read back from it, and
so the written label is accepted as it is.
-/
import ProposerBook.Proofs.Outcome
import ProposerBook.Proofs.Text.Lowercase
import ProposerBook.Proofs.Text.Split
import ProposerBook.Proofs.Text.Utf8
import ProposerBook.Proofs.Url.PercentEncoding
import ProposerBook.Proofs.Url.Punycode
import ProposerBook.Url.Domain

namespace ProposerBook

namespace Text

/-- What a character beyond ASCII is lower-cased to is itself, or one of the two for the dotted
capital I, or the form that its run gives it. -/
theorem mem_lowerChar_cases {c d : Char} (beyond : 0x80 ≤ c.toNat) (hd : d ∈ lowerChar c) :
    d = c ∨ d = 'i' ∨ d = Char.ofNat 0x307 ∨
      ∃ r ∈ lowerRuns, Run.covers r c.toNat = true ∧ d = Char.ofNat (Run.lowered r c.toNat) := by
  unfold lowerChar at hd
  dsimp only at hd
  rw [if_neg (by omega)] at hd
  by_cases hdotted : c.toNat = 0x130
  · rw [if_pos hdotted] at hd
    rcases List.mem_cons.mp hd with rfl | hd
    · exact Or.inr (Or.inl rfl)
    · exact Or.inr (Or.inr (Or.inl (List.mem_singleton.mp hd)))
  · rw [if_neg hdotted] at hd
    split at hd
    · rename_i r hfind
      have hcovers := List.find?_some hfind
      exact Or.inr (Or.inr (Or.inr ⟨r, List.mem_of_find?_eq_some hfind, hcovers,
        List.mem_singleton.mp hd⟩))
    · exact Or.inl (List.mem_singleton.mp hd)

end Text

namespace Domain

/-! ### Characters -/

/-- Characters beyond ASCII that are mapped to something other than their lower-case form. -/
def reserved : CharRanges :=
  dropped ++ fullStops.map (fun n => (n, n)) ++ [(0xff01, 0xff5e)]

theorem reserved_contains_iff {c : Char} : reserved.contains c = true ↔
    dropped.contains c = true ∨ c.toNat ∈ fullStops ∨ 0xff01 ≤ c.toNat ∧ c.toNat ≤ 0xff5e := by
  have hstops : ((fullStops.map fun n => (n, n)).any fun r => r.1 ≤ c.toNat && c.toNat ≤ r.2) =
      true ↔ c.toNat ∈ fullStops := by
    simp [fullStops]
    omega
  unfold reserved CharRanges.contains
  rw [List.any_append, List.any_append, Bool.or_eq_true, Bool.or_eq_true, hstops, or_assoc]
  simp

/-- The lower-case forms of a run are not reserved, unless the run is. -/
theorem runs_avoid_reserved : (Text.lowerRuns.all fun r =>
    (reserved.any fun s => s.1 ≤ r.1 && r.2.1 ≤ s.2) ||
      reserved.all fun s => s.2 < Text.Run.lowered r r.1 || Text.Run.lowered r r.2.1 < s.1) =
        true := by
  decide +kernel

/-- A character that is mapped to itself. -/
def Settled (c : Char) : Prop := mapChar c = [c]

instance (c : Char) : Decidable (Settled c) := inferInstanceAs (Decidable (_ = _))

theorem settled_of_ascii : ∀ n < 0x80, (mapChar (Char.ofNat n)).Forall Settled := by
  decide +kernel

theorem settled_of_fullWidth : ∀ n < 0x5e, Settled (Char.ofNat (0x21 + n)).toLower := by
  decide +kernel

theorem settled_of_lower_ascii : ∀ n < 0x80, Text.IsLower (Char.ofNat n) →
    Settled (Char.ofNat n) := by
  decide +kernel

theorem mapChar_of_free {c : Char} (beyond : 0x80 ≤ c.toNat) (free : reserved.contains c = false) :
    mapChar c = Text.lowerChar c := by
  rw [← Bool.not_eq_true, reserved_contains_iff, not_or, not_or] at free
  obtain ⟨hdropped, hstops, hwide⟩ := free
  unfold mapChar
  rw [if_neg (by omega), if_neg hdropped, if_neg (by simpa using hstops), if_neg hwide]

theorem settled_of_isLower {c : Char} (lower : Text.IsLower c)
    (free : reserved.contains c = false) : Settled c := by
  by_cases hascii : c.toNat < 0x80
  · revert lower
    exact char_of_lt c hascii settled_of_lower_ascii
  · unfold Settled
    rw [mapChar_of_free (by omega) free]
    exact lower.2

/-- A lower-case form is reserved only if the character is. -/
theorem free_of_mem_lowerChar {c d : Char} (beyond : 0x80 ≤ c.toNat)
    (free : reserved.contains c = false) (hd : d ∈ Text.lowerChar c) :
    reserved.contains d = false := by
  rcases Text.mem_lowerChar_cases beyond hd with rfl | rfl | rfl | ⟨r, hr, hcovers, rfl⟩
  · exact free
  · decide
  · decide
  · have hlands := List.all_eq_true.mp Text.lands_of_mem r hr
    obtain ⟨hlow, hhigh, -⟩ := Text.Run.covers_iff.mp hcovers
    obtain ⟨-, hfirst, hlast⟩ := Text.Run.lowered_between hlands hlow hhigh
    obtain ⟨hvalid, -⟩ := Text.Run.isValidChar_of_lands hlands hfirst hlast
    have hchar : (Char.ofNat (Text.Run.lowered r c.toNat)).toNat = Text.Run.lowered r c.toNat := by
      unfold Char.ofNat
      rw [dif_pos hvalid]
      rfl
    have havoids := List.all_eq_true.mp runs_avoid_reserved r hr
    unfold CharRanges.contains at free ⊢
    rw [List.any_eq_false] at free ⊢
    intro s hs
    rw [hchar]
    rcases Bool.or_eq_true_iff.mp havoids with hinside | hapart
    · obtain ⟨t, ht, hbounds⟩ := List.any_eq_true.mp hinside
      have hmember := free t ht
      simp only [Bool.and_eq_true, decide_eq_true_eq] at hbounds hmember
      omega
    · have hs := List.all_eq_true.mp hapart s hs
      simp only [Bool.and_eq_true, Bool.or_eq_true, decide_eq_true_eq] at hs ⊢
      omega

/-- **What a character is mapped to is mapped to itself.** -/
theorem settled_of_mem_mapChar {c d : Char} (hd : d ∈ mapChar c) : Settled d := by
  by_cases hascii : c.toNat < 0x80
  · have hall : (mapChar c).Forall Settled := char_of_lt c hascii settled_of_ascii
    exact List.forall_iff_forall_mem.mp hall d hd
  by_cases hfree : reserved.contains c = false
  · rw [mapChar_of_free (by omega) hfree] at hd
    by_cases hsigma : c = 'Σ'
    · subst hsigma
      have hall : (Text.lowerChar 'Σ').Forall Settled := by decide
      exact List.forall_iff_forall_mem.mp hall d hd
    · exact settled_of_isLower (Text.isLower_of_mem_lowerChar hsigma hd)
        (free_of_mem_lowerChar (by omega) hfree hd)
  · rw [Bool.not_eq_false, reserved_contains_iff] at hfree
    unfold mapChar at hd
    rw [if_neg hascii] at hd
    by_cases hdropped : dropped.contains c = true
    · rw [if_pos hdropped] at hd
      cases hd
    rw [if_neg hdropped] at hd
    by_cases hstop : fullStops.contains c.toNat = true
    · rw [if_pos hstop, List.mem_singleton] at hd
      rw [hd]
      decide
    · have hwide := (hfree.resolve_left hdropped).resolve_left (by simpa using hstop)
      have hplace : c.toNat - 0xfee0 = 0x21 + (c.toNat - 0xff01) := by omega
      rw [if_neg hstop, if_pos hwide, List.mem_singleton, hplace] at hd
      rw [hd]
      exact settled_of_fullWidth _ (by omega)

/-! ### Labels -/

/-- A label comes out as it is or in Punycode. -/
theorem labelToAscii?_cases {label out : List Char} (h : labelToAscii? label = some out) :
    (out = label ∧ isAscii label = true) ∨
      (out = "xn--".toList ++ Punycode.encode label ∧ isAscii label = false ∧
        isProper label = true) := by
  unfold labelToAscii? at h
  split at h
  · rename_i cs
    split at h
    · rename_i hascii _
      split at h
      · cases h
        exact Or.inl ⟨rfl, hascii⟩
      · cases h
    · cases h
  · by_cases hascii : isAscii label = true
    · rw [if_pos hascii] at h
      cases h
      exact Or.inl ⟨rfl, hascii⟩
    · rw [if_neg hascii] at h
      by_cases hproper : isProper label = true
      · rw [if_pos hproper] at h
        cases h
        exact Or.inr ⟨rfl, Bool.eq_false_iff.mpr hascii, hproper⟩
      · rw [if_neg hproper] at h
        cases h

/-- A character that an ASCII form may have within a label. -/
def Plain (c : Char) : Prop := c.toNat < 0x80 ∧ Settled c ∧ c ≠ '.'

instance (c : Char) : Decidable (Plain c) := inferInstanceAs (Decidable (_ ∧ _))

theorem plain_digit : ∀ n < 36, Plain (Punycode.digit n) := by decide +kernel

theorem plain_of_mem_encode {label : List Char} (settled : ∀ c ∈ label, Settled c)
    (whole : '.' ∉ label) {c : Char} (hc : c ∈ Punycode.encode label) : Plain c := by
  rcases Punycode.mem_encode hc with ⟨hmem, hascii⟩ | rfl | ⟨n, hn, rfl⟩
  · exact ⟨hascii, settled c hmem, fun hdot => whole (hdot ▸ hmem)⟩
  · decide
  · exact plain_digit n hn

theorem isAscii_iff {cs : List Char} : isAscii cs = true ↔ ∀ c ∈ cs, c.toNat < 0x80 := by
  simp [isAscii]

/-- The ASCII form of a label is plain. -/
theorem plain_of_labelToAscii? {label out : List Char} (settled : ∀ c ∈ label, Settled c)
    (whole : '.' ∉ label) (h : labelToAscii? label = some out) {c : Char} (hc : c ∈ out) :
    Plain c := by
  rcases labelToAscii?_cases h with ⟨rfl, hascii⟩ | ⟨rfl, -, -⟩
  · exact ⟨isAscii_iff.mp hascii c hc, settled c hc, fun hdot => whole (hdot ▸ hc)⟩
  · rcases List.mem_append.mp hc with hc | hc
    · have hprefix : "xn--".toList.Forall Plain := by decide
      exact List.forall_iff_forall_mem.mp hprefix c hc
    · exact plain_of_mem_encode settled whole hc

/-- **The ASCII form of a label is its own.** -/
theorem labelToAscii?_of_labelToAscii? {label out : List Char} (settled : ∀ c ∈ label, Settled c)
    (whole : '.' ∉ label) (h : labelToAscii? label = some out) : labelToAscii? out = some out := by
  rcases labelToAscii?_cases h with ⟨rfl, -⟩ | ⟨rfl, hascii, hproper⟩
  · exact h
  · have hwritten : isAscii (Punycode.encode label) = true :=
      isAscii_iff.mpr fun c hc => (plain_of_mem_encode settled whole hc).1
    have hneeds : needsPunycode label = true := by
      unfold needsPunycode
      rw [hascii, hproper, flatMap_eq_self settled]
      simp
    show labelToAscii? ('x' :: 'n' :: '-' :: '-' :: Punycode.encode label) = _
    simp only [labelToAscii?, hwritten, Punycode.decode?_encode, hneeds, if_true]
    rfl

/-! ### Names -/

/-- A name in its ASCII form. -/
structure Canonical (name : List Char) : Prop where
  chars : ∀ c ∈ name, c.toNat < 0x80 ∧ Settled c ∧ isForbidden c = false
  labels : ∀ label ∈ name.splitOn '.', labelToAscii? label = some label

/-- **An ASCII form is its own ASCII form.** -/
theorem Canonical.toAscii? {name : List Char} (h : Canonical name) :
    Domain.toAscii? (Bytes.ofString (String.ofList name)) = some name := by
  have hmapped : name.flatMap mapChar = name := flatMap_eq_self fun c hc => (h.chars c hc).2.1
  have hlabels : (name.splitOn '.').mapM labelToAscii? = some (name.splitOn '.') :=
    mapM_eq_some_iff.mpr (List.forall₂_same.mpr h.labels)
  have hclean : name.any isForbidden = false := by
    rw [List.any_eq_false]
    intro c hc
    rw [(h.chars c hc).2.2]
    exact Bool.false_ne_true
  unfold Domain.toAscii?
  rw [Bytes.toString?_ofString]
  show ((((String.ofList name).toList.flatMap mapChar).splitOn '.').mapM labelToAscii?).bind
    (fun labels => if (['.'].intercalate labels).any isForbidden then none
      else some (['.'].intercalate labels)) = _
  rw [String.toList_ofList, hmapped, hlabels, Option.bind_some, List.intercalate_splitOn, hclean]
  rfl

/-- **What comes out is an ASCII form.** -/
theorem canonical_of_toAscii? {b : Bytes} {name : List Char} (h : toAscii? b = some name) :
    Canonical name := by
  obtain ⟨text, -, hmore⟩ := Option.bind_eq_some_iff.mp h
  obtain ⟨outs, houts, hend⟩ := Option.bind_eq_some_iff.mp hmore
  dsimp only at houts hend
  split at hend
  · cases hend
  rename_i hclean
  cases hend
  have hlabel : ∀ out ∈ outs, (∀ c ∈ out, Plain c) ∧ labelToAscii? out = some out := by
    intro out hout
    obtain ⟨label, hmem, hlabel⟩ := exists_of_mem_mapM houts hout
    have hsettled : ∀ c ∈ label, Settled c := by
      intro c hc
      obtain ⟨d, -, hd⟩ := List.mem_flatMap.mp (Text.mem_of_mem_splitOn hmem hc).1
      exact settled_of_mem_mapChar hd
    have hwhole : '.' ∉ label := fun hdot => (Text.mem_of_mem_splitOn hmem hdot).2 rfl
    exact ⟨fun c hc => plain_of_labelToAscii? hsettled hwhole hlabel hc,
      labelToAscii?_of_labelToAscii? hsettled hwhole hlabel⟩
  have hsome : outs ≠ [] := by
    intro hnil
    have hlength := (mapM_eq_some_iff.mp houts).length_eq
    rw [hnil] at hlength
    exact List.splitOn_ne_nil _ _ (List.length_eq_zero_iff.mp hlength)
  refine ⟨?_, ?_⟩
  · intro c hc
    have hfine : isForbidden c = false :=
      Bool.eq_false_iff.mpr fun hbad => hclean (List.any_eq_true.mpr ⟨c, hc, hbad⟩)
    rcases Text.mem_intercalate hc with rfl | ⟨out, hout, hmem⟩
    · exact ⟨by decide, by decide, hfine⟩
    · obtain ⟨hascii, hsettled, -⟩ := (hlabel out hout).1 c hmem
      exact ⟨hascii, hsettled, hfine⟩
  · rw [List.splitOn_intercalate '.' (fun out hout hdot => ((hlabel out hout).1 '.' hdot).2.2 rfl)
      hsome]
    exact fun out hout => (hlabel out hout).2

end Domain

end ProposerBook
