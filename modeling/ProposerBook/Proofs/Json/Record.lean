/-
An object that is read as a record.

The entries of the object are worked into the record one after the other, and an entry with a
name that the record does not know is passed over.  What becomes of a field depends only on the
trees under its name, of which there may be one at most.  So an invariant that tells of every
field what it is and what is still to come for it is kept from entry to entry, in whatever order
the fields stand and whatever stands between them.  If each entry does to the record just what the
invariant says, the entries that are accepted are those for which it holds at the beginning.

A record may also be a row: an array of its fields, in their order, with nothing behind them.
-/
import ProposerBook.Proofs.Json.Decode
import ProposerBook.Proofs.Json.Grammar

namespace ProposerBook

namespace Json

variable {ε α σ : Type} {d : Decoder ε α} {old new : Option α} {name k : String} {t : Tree}
  {es : List (String × Tree)}

/-- The trees under a name. -/
def under (name : String) (es : List (String × Tree)) : List Tree :=
  (es.filter fun e => e.1 = name).map fun e => e.2

theorem under_cons_self : under name ((name, t) :: es) = t :: under name es := by
  simp [under]

theorem under_cons_of_ne (h : k ≠ name) : under name ((k, t) :: es) = under name es := by
  simp [under, h]

theorem mem_of_mem_under (h : t ∈ under name es) : (name, t) ∈ es := by
  obtain ⟨e, he, rfl⟩ := List.mem_map.mp h
  obtain ⟨hmem, hname⟩ := List.mem_filter.mp he
  rw [← of_decide_eq_true hname]
  exact hmem

/-- How trees that are still to come make `new` of a field that is `old`: there is none, or there
is one and the field has not been set. -/
inductive Completes (d : Decoder ε α) : Option α → List Tree → Option α → Prop
  | settled {x : Option α} : Completes d x [] x
  | read {t : Tree} {x : α} (value : d t = .ok x) : Completes d none [t] (some x)

/-- Nothing more comes for a field at the end of the object. -/
theorem Completes.eq_of_nil (h : Completes d old (under name []) new) : old = new := by
  cases h with
  | settled => rfl

/-- An entry with the name of a field sets it. -/
theorem Completes.once (h : Completes d old (under name ((name, t) :: es)) new) :
    ∃ x, Json.once name old d t = .ok x ∧ Completes d x (under name es) new := by
  rw [under_cons_self] at h
  generalize under name es = ts at h ⊢
  cases h with
  | @read _ x value =>
    refine ⟨some x, ?_, .settled⟩
    show (d t).map some = .ok (some x)
    rw [value]
    rfl

/-- What sets a field was the only tree for it. -/
theorem Completes.of_once {x : Option α} (h : Json.once name old d t = .ok x)
    (more : Completes d x (under name es) new) :
    Completes d old (under name ((name, t) :: es)) new := by
  rw [under_cons_self]
  cases old with
  | some y => cases h
  | none =>
    obtain ⟨y, hy, rfl⟩ := map_eq_ok_iff.mp h
    generalize under name es = ts at more
    cases more with
    | settled => exact .read hy

/-- What a field that has not been set becomes in the end. -/
theorem completes_none_some_iff {ts : List Tree} {x : α} :
    Completes d none ts (some x) ↔ ∃ t, ts = [t] ∧ d t = .ok x := by
  constructor
  · intro h
    cases h with
    | read value => exact ⟨_, rfl, value⟩
  · rintro ⟨t, rfl, value⟩
    exact .read value

/-- What a field that has not been set becomes in the end, if nothing need be there for it. -/
theorem completes_none_iff {ts : List Tree} :
    Completes d none ts new ↔
      (ts = [] ∧ new = none) ∨ ∃ t x, ts = [t] ∧ new = some x ∧ d t = .ok x := by
  constructor
  · intro h
    cases h with
    | settled => exact Or.inl ⟨rfl, rfl⟩
    | read value => exact Or.inr ⟨_, _, rfl, rfl, value⟩
  · rintro (⟨rfl, rfl⟩ | ⟨t, x, rfl, rfl, value⟩)
    · exact .settled
    · exact .read value

/-- Nothing is wrong with a tree that sets a field, if the decoder accepts no faulty ones. -/
theorem skip_of_once (sound : ∀ {x : α}, d t = .ok x → t.skip = none)
    (h : Json.once name old d t = .ok new) : t.skip = none := by
  cases old with
  | some y => cases h
  | none =>
    obtain ⟨x, hx, -⟩ := map_eq_ok_iff.mp h
    exact sound hx

/-- An entry with another name leaves it alone. -/
theorem Completes.past (h : Completes d old (under name ((k, t) :: es)) new) (other : k ≠ name) :
    Completes d old (under name es) new := by
  rwa [under_cons_of_ne other] at h

theorem Completes.behind (h : Completes d old (under name es) new) (other : k ≠ name) :
    Completes d old (under name ((k, t) :: es)) new := by
  rwa [under_cons_of_ne other]

/-- **Entries make the record that an invariant leaves at the end.**  The invariant is about the
record as far as it has been read, and about the entries still to come. -/
theorem fields_of_invariant {step : σ → String → Tree → Except (Refusal ε) σ}
    {Holds : σ → List (String × Tree) → Prop} {last : σ}
    (keeps : ∀ s k t es, Holds s ((k, t) :: es) → ∃ s', step s k t = .ok s' ∧ Holds s' es)
    (ends : ∀ s, Holds s [] → s = last) {s : σ} (start : Holds s es) :
    fields step s (keyed es) = .ok last := by
  induction es generalizing s with
  | nil =>
    show Except.ok s = .ok last
    rw [ends s start]
  | cons e es ih =>
    obtain ⟨s', hstep, hkept⟩ := keeps s e.1 e.2 es start
    show (do let s ← step s e.1 e.2; fields step s (keyed es)) = .ok last
    rw [hstep]
    exact ih hkept

/-- **Entries that make a record have the invariant at the beginning.** -/
theorem invariant_of_fields {step : σ → String → Tree → Except (Refusal ε) σ}
    {Holds : σ → List (String × Tree) → Prop} {last : σ}
    (keeps : ∀ s k t s' es, step s k t = .ok s' → Holds s' es → Holds s ((k, t) :: es))
    (ends : Holds last []) {s : σ} {es : List (StringLiteral × Tree)}
    (read : fields step s es = .ok last) : ∃ fs, es = keyed fs ∧ Holds s fs := by
  induction es generalizing s with
  | nil =>
    cases read
    exact ⟨[], rfl, ends⟩
  | cons e es ih =>
    obtain ⟨k, hk, hread⟩ := bind_eq_ok_iff.mp read
    obtain ⟨s', hstep, hmore⟩ := bind_eq_ok_iff.mp hread
    obtain ⟨fs, rfl, hfs⟩ := ih hmore
    refine ⟨(k, e.2) :: fs, ?_, keeps s k e.2 s' fs hstep hfs⟩
    rw [liftFault_eq_ok_iff] at hk
    show (e.1, e.2) :: keyed fs = (.ok k, e.2) :: keyed fs
    rw [hk]

theorem required_eq_ok_iff {x : Option α} {y : α} :
    (required name x : Except (Refusal ε) α) = .ok y ↔ x = some y := by
  cases x with
  | none => simp [required]
  | some z => simp [required]

/-! ### Rows -/

/-- The next field of a row is its next item. -/
theorem Row.next_eq_ok_iff {r r' : Row} {i : Nat} {expected : String} {x : α} :
    r.next i expected d = .ok (x, r') ↔
      ∃ t, r.items = t :: r'.items ∧ r.stop = r'.stop ∧ d t = .ok x := by
  obtain ⟨ts, stop⟩ := r
  cases ts with
  | nil =>
    refine iff_of_false ?_ (by simp)
    intro h
    obtain ⟨y, hnext, hend⟩ := bind_eq_ok_iff.mp h
    obtain ⟨u, -, hnone⟩ := bind_eq_ok_iff.mp hnext
    cases hnone
    cases hend
  | cons t ts =>
    constructor
    · intro h
      obtain ⟨y, hnext, hend⟩ := bind_eq_ok_iff.mp h
      obtain ⟨z, hz, hsome⟩ := bind_eq_ok_iff.mp hnext
      cases hsome
      cases hend
      exact ⟨t, rfl, rfl, hz⟩
    · rintro ⟨t', heq, hstop, hx⟩
      obtain ⟨rfl, rfl⟩ := List.cons.inj heq
      subst hstop
      exact bind_eq_ok_iff.mpr ⟨(some x, _), bind_eq_ok_iff.mpr ⟨x, hx, rfl⟩, rfl⟩

/-- A field that may be left out is the next item, if there is one. -/
theorem Row.next?_eq_ok_iff {r r' : Row} {x : Option α} :
    r.next? d = .ok (x, r') ↔
      (r.items = [] ∧ r.stop = none ∧ x = none ∧ r' = r) ∨
      ∃ t y, r.items = t :: r'.items ∧ r.stop = r'.stop ∧ x = some y ∧ d t = .ok y := by
  obtain ⟨ts, stop⟩ := r
  cases ts with
  | nil =>
    constructor
    · intro h
      obtain ⟨u, hstop, hend⟩ := bind_eq_ok_iff.mp h
      cases hend
      exact Or.inl ⟨rfl, closing_eq_ok_iff.mp hstop, rfl, rfl⟩
    · rintro (⟨-, rfl, rfl, rfl⟩ | ⟨t, y, hitems, -⟩)
      · rfl
      · cases hitems
  | cons t ts =>
    constructor
    · intro h
      obtain ⟨y, hy, hend⟩ := bind_eq_ok_iff.mp h
      cases hend
      exact Or.inr ⟨t, y, rfl, rfl, rfl, hy⟩
    · rintro (⟨hitems, -⟩ | ⟨t', y, heq, hstop, rfl, hy⟩)
      · cases hitems
      · obtain ⟨rfl, rfl⟩ := List.cons.inj heq
        subst hstop
        exact bind_eq_ok_iff.mpr ⟨y, hy, rfl⟩

/-- A row ends where it has no more items. -/
theorem Row.finish_eq_ok_iff {r : Row} {u : Unit} :
    (r.finish : Except (Refusal ε) Unit) = .ok u ↔ r.items = [] ∧ r.stop = none := by
  obtain ⟨ts, stop⟩ := r
  cases ts with
  | nil =>
    show closing stop = .ok u ↔ _
    simp [closing_eq_ok_iff]
  | cons t ts => simp [Row.finish]

/-! ### What is passed over -/

/-- A tree without a fault is passed over. -/
theorem ignored_of_skip (h : t.skip = none) : (ignored t : Except (Refusal ε) Unit) = .ok () :=
  ignored_eq_ok_iff.mpr h

/-- Where nothing is wrong with the values of an object, nothing is wrong with the one under a
name. -/
theorem skip_of_mem_under (whole : ∀ e ∈ es, e.2.skip = none) (h : under name es = [t]) :
    t.skip = none := by
  have hmem : (name, t) ∈ es := by
    refine mem_of_mem_under ?_
    rw [h]
    exact List.mem_cons_self
  exact whole _ hmem

/-- Nor with what stands in an object among them. -/
theorem skip_of_under {fs : List (String × Tree)} (whole : ∀ e ∈ es, e.2.skip = none)
    (h : under name es = [.object (keyed fs) none]) : ∀ f ∈ fs, f.2.skip = none :=
  skip_of_keyed (Option.or_eq_none_iff.mp (skip_of_mem_under whole h)).1

end Json

end ProposerBook
