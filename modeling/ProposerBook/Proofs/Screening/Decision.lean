/-
What a check decides, and what it puts on record.

A name stands for one list: for its own, if it has one, and else for the baseline.  The
baseline is always there, so every check is made against some list, and an unknown name
never lets an address pass that the baseline would stop.

A check fails if an address is on that list or on the blacklist.  One finding against the
addresses goes on record, and the named list comes before the blacklist: it is the first
address on the list, wherever it stands, and only if there is none the first one on the
blacklist.
-/
import ProposerBook.Proofs.AddressSet
import ProposerBook.Proofs.Screening.Registry

namespace ProposerBook

namespace Registry

/-! ### Which list -/

/-- The name is not empty, and no list has it. -/
def Unknown (r : Registry) (name : String) : Prop := name ≠ "" ∧ r.lists.contains name = false

instance (r : Registry) (name : String) : Decidable (r.Unknown name) :=
  inferInstanceAs (Decidable (_ ∧ _))

/-- The list that a name stands for: its own if there is one, and else the baseline. -/
def screened (r : Registry) (name : String) : String :=
  if name ≠ "" ∧ r.lists.contains name = true then name else Baseline.name

theorem resolve_eq (r : Registry) (name : String) :
    r.resolve name = (r.screened name, if r.Unknown name then [.unknownList name] else []) := by
  unfold resolve screened Unknown
  by_cases hempty : name = ""
  · simp [hempty]
  · by_cases hlist : r.lists.contains name = true
    · simp [hempty, hlist]
    · simp [hempty, hlist]

/-- **The list that a name stands for exists.** -/
theorem Arises.screened {r : Registry} (h : r.Arises) (name : String) :
    ∃ s, r.lists.get? (r.screened name) = some s := by
  unfold Registry.screened
  by_cases hown : name ≠ "" ∧ r.lists.contains name = true
  · rw [if_pos hown]
    exact Table.contains_iff.mp hown.2
  · rw [if_neg hown]
    exact h.baseline

theorem screened_of_empty (r : Registry) : r.screened "" = Baseline.name := by
  unfold screened
  exact if_neg fun hc => hc.1 rfl

theorem screened_of_unlisted {r : Registry} {name : String}
    (h : r.lists.contains name = false) : r.screened name = Baseline.name := by
  unfold screened
  rw [h]
  exact if_neg fun hc => Bool.false_ne_true hc.2

/-- The baseline stands for itself, whether it is listed or not. -/
theorem screened_baseline (r : Registry) : r.screened Baseline.name = Baseline.name := by
  unfold screened
  split <;> rfl

/-! ### Which address -/

/-- Of the addresses `a` is the first one in the set. -/
def FirstIn (s : AddressSet) (as : List Address) (a : Address) : Prop :=
  ∃ before after, as = before ++ a :: after ∧ a ∈ s ∧ ∀ b ∈ before, ¬b ∈ s

theorem find?_contains_eq_some_iff {s : AddressSet} {as : List Address} {a : Address} :
    as.find? s.contains = some a ↔ FirstIn s as a := by
  have hnot : ∀ b, (!s.contains b) = true ↔ ¬b ∈ s := by
    intro b
    rw [← AddressSet.contains_iff, Bool.not_eq_true']
    exact Bool.not_eq_true _ ▸ Iff.rfl
  rw [List.find?_eq_some_iff_append, AddressSet.contains_iff]
  unfold FirstIn
  refine ⟨?_, ?_⟩
  · rintro ⟨ha, before, after, has, hbefore⟩
    exact ⟨before, after, has, ha, fun b hb => (hnot b).mp (hbefore b hb)⟩
  · rintro ⟨before, after, has, ha, hbefore⟩
    exact ⟨ha, before, after, has, fun b hb => (hnot b).mpr (hbefore b hb)⟩

theorem find?_contains_eq_none_iff {s : AddressSet} {as : List Address} :
    as.find? s.contains = none ↔ ∀ a ∈ as, ¬a ∈ s := by
  rw [List.find?_eq_none]
  refine ⟨fun h a ha hs => h a ha (AddressSet.contains_iff.mpr hs), ?_⟩
  intro h a ha hs
  exact h a ha (AddressSet.contains_iff.mp hs)

theorem FirstIn.mem {s : AddressSet} {as : List Address} {a : Address} (h : FirstIn s as a) :
    a ∈ as ∧ a ∈ s := by
  obtain ⟨before, after, rfl, ha, -⟩ := h
  exact ⟨List.mem_append_right _ List.mem_cons_self, ha⟩

/-! ### What goes on record -/

/-- What a check of `as` against the list `s` named `list` puts on record about the addresses. -/
inductive Audit (r : Registry) (list : String) (s : AddressSet) (as : List Address) :
    List Finding → Prop
  | clean (unlisted : ∀ a ∈ as, ¬a ∈ s)
      (unblocked : ∀ a ∈ as, ¬a ∈ r.blacklist.blocked) : Audit r list s as []
  | listed {a : Address} (first : FirstIn s as a) : Audit r list s as [.listed list a]
  /-- The blacklist counts only where nothing is on the list. -/
  | blacklisted {a : Address} (unlisted : ∀ a ∈ as, ¬a ∈ s)
      (first : FirstIn r.blacklist.blocked as a) :
    Audit r list s as [.blacklisted a ((r.blacklist.reason? a).getD unspecified)]

theorem finding?_eq {r : Registry} {list : String} {s : AddressSet} (as : List Address)
    (h : r.lists.get? list = some s) : r.finding? list as =
      ((as.find? s.contains).map (.listed list)).or
        ((as.find? r.blacklist.blocked.contains).map fun a =>
          .blacklisted a ((r.blacklist.reason? a).getD unspecified)) := by
  have hmap : ∀ (x : Option Address) (f : Address → Finding),
      (do let a ← x; return f a) = x.map f := by
    intro x f
    cases x <;> rfl
  have hblocked : r.blacklist.contains = r.blacklist.blocked.contains := rfl
  unfold finding?
  rw [h, hblocked]
  show ((do let a ← as.find? s.contains; return Finding.listed list a).or _) = _
  rw [hmap, hmap]

theorem audit_finding {r : Registry} {list : String} {s : AddressSet} (as : List Address)
    (h : r.lists.get? list = some s) : Audit r list s as (r.finding? list as).toList := by
  rw [finding?_eq as h]
  cases hlisted : as.find? s.contains with
  | some a => exact .listed (find?_contains_eq_some_iff.mp hlisted)
  | none =>
    have hunlisted := find?_contains_eq_none_iff.mp hlisted
    cases hhit : as.find? r.blacklist.blocked.contains with
    | some a => exact .blacklisted hunlisted (find?_contains_eq_some_iff.mp hhit)
    | none => exact .clean hunlisted (find?_contains_eq_none_iff.mp hhit)

/-- There is a finding just when an address is sanctioned. -/
theorem Audit.eq_nil_iff {r : Registry} {list : String} {s : AddressSet} {as : List Address}
    {fs : List Finding} (h : Audit r list s as fs) :
    fs = [] ↔ ¬∃ a ∈ as, a ∈ s ∨ a ∈ r.blacklist.blocked := by
  cases h with
  | clean unlisted unblocked =>
    refine ⟨fun _ => ?_, fun _ => rfl⟩
    rintro ⟨a, ha, hs | hb⟩
    · exact unlisted a ha hs
    · exact unblocked a ha hb
  | listed first =>
    refine ⟨nofun, fun hno => absurd ?_ hno⟩
    exact ⟨_, first.mem.1, Or.inl first.mem.2⟩
  | blacklisted unlisted first =>
    refine ⟨nofun, fun hno => absurd ?_ hno⟩
    exact ⟨_, first.mem.1, Or.inr first.mem.2⟩

/-! ### The main result -/

theorem check_eq (r : Registry) (name : String) (as : List Address) :
    r.check name as = ⟨(r.finding? (r.screened name) as).isNone,
      (if r.Unknown name then [.unknownList name] else [])
        ++ (r.finding? (r.screened name) as).toList⟩ := by
  unfold check
  rw [resolve_eq]

/-- Names that stand for one list get one verdict. -/
theorem compliant_congr {r : Registry} {m n : String} (h : r.screened m = r.screened n)
    (as : List Address) : (r.check m as).compliant = (r.check n as).compliant := by
  rw [check_eq, check_eq, h]

theorem compliant_iff_finding (r : Registry) (name : String) (as : List Address) :
    (r.check name as).compliant = true ↔ (r.finding? (r.screened name) as).toList = [] := by
  rw [check_eq]
  cases r.finding? (r.screened name) as <;> simp

/-- A check passes just when no address is on the list or on the blacklist. -/
theorem compliant_iff {r : Registry} {name : String} {s : AddressSet}
    (h : r.lists.get? (r.screened name) = some s) (as : List Address) :
    (r.check name as).compliant = true ↔ ¬∃ a ∈ as, a ∈ s ∨ a ∈ r.blacklist.blocked := by
  rw [compliant_iff_finding, (audit_finding as h).eq_nil_iff]

/--
**A check is made against the list that the name stands for, and against the blacklist.**  That
list exists.  The check fails just when an address is on one of the two.  It is put on record
that no list has the name, if so, and then one finding at most: none of a check that passes, and
of one that fails the first address on the list, or, only where there is none, the first one on
the blacklist.  The empty name and names that no list has do as well as the baseline's.
-/
theorem check_decides {r : Registry} (h : r.Arises) (name : String) (as : List Address) :
    (∃ s audit, r.lists.get? (r.screened name) = some s ∧
      (r.check name as).findings
        = (if r.Unknown name then [.unknownList name] else []) ++ audit ∧
      Audit r (r.screened name) s as audit ∧
      ((r.check name as).compliant = true ↔ audit = []) ∧
      ((r.check name as).compliant = false
        ↔ ∃ a ∈ as, a ∈ s ∨ a ∈ r.blacklist.blocked)) ∧
    (name = "" ∨ r.lists.contains name = false →
      r.screened name = Baseline.name ∧
      (r.check name as).compliant = (r.check Baseline.name as).compliant) := by
  refine ⟨?_, ?_⟩
  · obtain ⟨s, hs⟩ := h.screened name
    refine ⟨s, (r.finding? (r.screened name) as).toList, hs, ?_, audit_finding as hs,
      r.compliant_iff_finding name as, ?_⟩
    · rw [check_eq]
    · rw [← Bool.not_eq_true, compliant_iff hs, Classical.not_not]
  · intro hfalls
    have hbaseline : r.screened name = Baseline.name := by
      rcases hfalls with rfl | hno
      · exact screened_of_empty r
      · exact screened_of_unlisted hno
    exact ⟨hbaseline, compliant_congr (hbaseline.trans (screened_baseline r).symm) as⟩

/-- The address on the list. -/
def listedAddress : Address := .repeated 1

/-- The blocked address. -/
def blockedAddress : Address := .repeated 2

/-- A registry with a list of its own, and with an address blocked for no recorded reason. -/
def guarded : Registry :=
  ((fresh default).perform
    (.update default (Table.ofList [("strict", .ofList [listedAddress])]))).perform
    (.block (.ofList [blockedAddress]))

/-- The listed address goes on record, although the check meets the blocked one first. -/
theorem check_decides_guarded :
    guarded.Arises ∧ guarded.lists.contains "lax" = false ∧
    (guarded.check "strict" [blockedAddress, listedAddress]).compliant = false ∧
    (guarded.check "strict" [blockedAddress, listedAddress]).findings
      = [.listed "strict" listedAddress] ∧
    (guarded.check "lax" [listedAddress]).compliant
      = (guarded.check Baseline.name [listedAddress]).compliant := by
  have harises : guarded.Arises := .operation (.operation .fresh _) _
  have hunlisted : guarded.lists.contains "lax" = false := by decide
  obtain ⟨⟨s, audit, hs, hfindings, haudit, -, hfails⟩, -⟩ :=
    check_decides harises "strict" [blockedAddress, listedAddress]
  obtain ⟨-, hlax⟩ := check_decides harises "lax" [listedAddress]
  have hscreened : guarded.screened "strict" = "strict" := by decide
  have hknown : ¬guarded.Unknown "strict" := by decide
  have hlist : guarded.lists.get? "strict" = some (.ofList [listedAddress]) := by decide
  rw [hscreened] at hs haudit
  rw [hlist, Option.some.injEq] at hs
  subst hs
  have hon : listedAddress ∈ AddressSet.ofList [listedAddress] :=
    AddressSet.mem_ofList.mpr (List.mem_singleton.mpr rfl)
  have hmem : listedAddress ∈ [blockedAddress, listedAddress] :=
    List.mem_cons_of_mem _ List.mem_cons_self
  refine ⟨harises, hunlisted, hfails.mpr ⟨listedAddress, hmem, Or.inl hon⟩, ?_,
    (hlax (Or.inr hunlisted)).2⟩
  rw [hfindings, if_neg hknown]
  cases haudit with
  | clean unlisted => exact absurd hon (unlisted listedAddress hmem)
  | blacklisted unlisted => exact absurd hon (unlisted listedAddress hmem)
  | listed first =>
    rw [List.mem_singleton.mp (AddressSet.mem_ofList.mp first.mem.2)]
    rfl

end Registry

end ProposerBook
