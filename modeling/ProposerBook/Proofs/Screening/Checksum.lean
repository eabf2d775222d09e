/-
The checksum of a set tells its members, and nothing else.

A set comes about in many ways: addresses are put in one by one or many at a time, it is made
from a row of them, from the members of another set in whatever order that one shows them, from
the bytes of a snapshot or from JSON.  `Making` is such a way, `Mentions` says of one which
addresses it brings, and `Makes` what comes of it, for whatever orders are met with on the way.

When the checksum is taken, the members are gone through in an order that nobody promises, they
are sorted, and their bytes are handed to the hash one address after the other.  Two sorted rows
of the same members are one row, so the bytes do not depend on the order; and since an address
has twenty bytes, the set can be read back from them.  Hence the bytes are the same just if the
members are.  All that is left between sets and checksums is the hash.
-/
import ProposerBook.Proofs.Screening.SetForm
import ProposerBook.Proofs.Snapshot.Meaning
import ProposerBook.Proofs.Snapshot.RoundTrip

namespace ProposerBook

theorem Hex.encode_injective {x y : Bytes} (h : Hex.encode x = Hex.encode y) : x = y := by
  have hchars : Hex.encodeChars x = Hex.encodeChars y := String.ofList_injective h
  have hread := Hex.decodeChars?_encodeChars x
  rw [hchars, Hex.decodeChars?_encodeChars] at hread
  exact (Option.some.inj hread).symm

namespace AddressSet

/-! ### Orders -/

/-- A set may show its members in any order, each of them once. -/
def Shows (s : AddressSet) (order : List Address) : Prop := order.Nodup ∧ ∀ a, a ∈ order ↔ a ∈ s

theorem shows_iff_perm {s : AddressSet} {order : List Address} :
    s.Shows order ↔ order.Perm s.members := by
  have hnodup := Sorted.nodup_of_ascending s.ascending
  constructor
  · rintro ⟨hone, hmem⟩
    exact (List.perm_ext_iff_of_nodup hone hnodup).mpr hmem
  · intro h
    exact ⟨h.nodup_iff.mpr hnodup, fun a => h.mem_iff⟩

theorem shows_ofList {as : List Address} (h : as.Nodup) : (ofList as).Shows as :=
  ⟨h, fun _ => mem_ofList.symm⟩

/-! ### How sets come about -/

/-- A way to make a set. -/
inductive Making
  | empty
  /-- From a row of addresses. -/
  | collect (as : List Address)
  /-- From the bytes of a set in a snapshot. -/
  | decode (b : Bytes)
  /-- From a JSON text. -/
  | read (b : Bytes)
  /-- One address more. -/
  | insert (m : Making) (a : Address)
  /-- A row of addresses more. -/
  | extend (m : Making) (as : List Address)
  /-- The members of another set more. -/
  | join (m other : Making)

/-- What comes of it.  Whether another set shows its members in one order or another is open, and
a text that is no set of addresses makes none. -/
inductive Makes : Making → AddressSet → Prop
  | empty : Makes .empty {}
  | collect (as : List Address) : Makes (.collect as) (ofList as)
  | decode (b : Bytes) : Makes (.decode b) (Snapshot.decodeSet b)
  | read {b : Bytes} {s : AddressSet} (h : Json.read JsonForm.set b = .ok s) : Makes (.read b) s
  | insert {m : Making} {s : AddressSet} (h : Makes m s) (a : Address) :
    Makes (.insert m a) (s.insert a)
  | extend {m : Making} {s : AddressSet} (h : Makes m s) (as : List Address) :
    Makes (.extend m as) (s.insertAll as)
  | join {m other : Making} {s t : AddressSet} {order : List Address} (h : Makes m s)
      (hother : Makes other t) (horder : t.Shows order) : Makes (.join m other) (s.insertAll order)

/-- An address that a way to make a set brings. -/
def Making.Mentions : Making → Address → Prop
  | .empty, _ => False
  | .collect as, a => a ∈ as
  | .decode b, a => Snapshot.HasChunk b a
  | .read b, a => ∃ t as, Json.Spells (.item t) b ∧ JsonForm.Holds t as ∧ a ∈ as
  | .insert m c, a => a = c ∨ m.Mentions a
  | .extend m as, a => a ∈ as ∨ m.Mentions a
  | .join m other, a => other.Mentions a ∨ m.Mentions a

theorem mem_of_read {b : Bytes} {s : AddressSet} (h : Json.read JsonForm.set b = .ok s)
    (a : Address) : a ∈ s ↔ (Making.read b).Mentions a := by
  obtain ⟨t, spelled, hset⟩ := (Json.read_eq_ok_iff JsonForm.skip_of_set_eq_ok).mp h
  have hsays := (JsonForm.set_eq_ok_iff (Json.skip_of_spells spelled)).mp hset
  constructor
  · intro ha
    rcases hsays with ⟨-, rfl⟩ | ⟨as, holds, hmem⟩
    · exact absurd ha (not_mem_empty a)
    · exact ⟨t, as, spelled, holds, (hmem a).mp ha⟩
  · rintro ⟨u, bs, hu, holds, ha⟩
    rw [Json.tree_unique hu spelled] at holds
    have hagain := JsonForm.set_of_holds holds (Json.skip_of_spells spelled)
    rw [hset, Except.ok.injEq] at hagain
    rw [hagain, mem_ofList]
    exact ha

/-- **The members are the addresses that were brought**, in whatever order and however often. -/
theorem mem_of_makes {m : Making} {s : AddressSet} (h : Makes m s) (a : Address) :
    a ∈ s ↔ m.Mentions a := by
  induction h with
  | empty => exact iff_of_false (not_mem_empty a) id
  | collect as => exact mem_ofList
  | decode b => exact Snapshot.mem_decodeSet
  | read h => exact mem_of_read h a
  | insert _ c ih => rw [mem_insert, ih, Making.Mentions]
  | extend _ as ih => rw [mem_insertAll, ih, Making.Mentions]
  | join _ _ horder ih ihother => rw [mem_insertAll, horder.2 a, ih, ihother, Making.Mentions]

/-! ### What is hashed -/

/-- The members in the order shown are sorted, and the bytes of one after the other are added to
what is hashed. -/
def Feeds (order : List Address) (fed : Bytes) : Prop :=
  ∃ sorted : List Address, sorted.Perm order ∧
    sorted.Pairwise (fun a b => (compare a b).isLE = true) ∧
    fed = sorted.foldl (fun soFar a => soFar ++ a.bytes) []

theorem foldl_append_eq (as : List Address) (soFar : Bytes) :
    as.foldl (fun soFar a => soFar ++ a.bytes) soFar = soFar ++ Snapshot.encodeAddresses as := by
  induction as generalizing soFar with
  | nil => exact (List.append_nil _).symm
  | cons a as ih =>
    rw [List.foldl_cons, ih, List.append_assoc]
    rfl

theorem sorted_members (s : AddressSet) :
    s.members.Pairwise fun a b => (compare a b).isLE = true :=
  s.ascending.imp Ordering.isLE_of_eq_lt

/-- The members can be sorted in one way only. -/
theorem sorted_unique {s : AddressSet} {sorted : List Address} (hperm : sorted.Perm s.members)
    (hsorted : sorted.Pairwise fun a b => (compare a b).isLE = true) : sorted = s.members := by
  refine List.Perm.eq_of_pairwise ?_ hsorted s.sorted_members hperm
  intro a b _ _ hab hba
  exact Std.LawfulEqCmp.eq_of_compare (Std.OrientedCmp.isLE_antisymm hab hba)

/-- **Whatever the order shown, the same bytes are hashed.** -/
theorem feeds_iff {s : AddressSet} {order : List Address} (h : s.Shows order) {fed : Bytes} :
    Feeds order fed ↔ fed = s.concat := by
  have hperm := shows_iff_perm.mp h
  constructor
  · rintro ⟨sorted, hsame, hsorted, rfl⟩
    rw [sorted_unique (hsame.trans hperm) hsorted, foldl_append_eq]
    rfl
  · rintro rfl
    refine ⟨s.members, hperm.symm, s.sorted_members, ?_⟩
    rw [foldl_append_eq]
    rfl

/-- Addresses are of one length, so that a set can be read back from its bytes. -/
theorem decodeSet_concat (s : AddressSet) : Snapshot.decodeSet s.concat = s := by
  have hread := Snapshot.decodeSet_encodeAddresses s.members
  rw [ofList_of_perm (List.Perm.refl _)] at hread
  exact hread

theorem concat_injective {s t : AddressSet} (h : s.concat = t.concat) : s = t := by
  rw [← decodeSet_concat s, h, decodeSet_concat]

theorem concat_eq_iff {s t : AddressSet} : s.concat = t.concat ↔ ∀ a, a ∈ s ↔ a ∈ t := by
  constructor
  · intro h a
    rw [concat_injective h]
  · intro h
    rw [ext h]

/-! ### Checksums -/

/-- **Checksums are canonical.**  However two sets were made, and in whatever order they show
their members, the bytes that are hashed are the same just if the same addresses were brought.
So sets with the same members have the same checksum, and if others have, then two different rows
of bytes have one hash. -/
theorem checksum_canonical {m n : Making} {s t : AddressSet} (hs : Makes m s) (ht : Makes n t) :
    ((∀ a, a ∈ s ↔ m.Mentions a) ∧ ∀ a, a ∈ t ↔ n.Mentions a) ∧
    (∀ order, s.Shows order → ∃ fed, Feeds order fed) ∧
    (∀ order fed, s.Shows order → Feeds order fed → s.checksum = Hex.encode (Sha256.hash fed)) ∧
    (∀ order order' fed fed', s.Shows order → t.Shows order' → Feeds order fed →
      Feeds order' fed' →
      (fed = fed' ↔ ∀ a, a ∈ s ↔ a ∈ t) ∧ (fed = fed' ↔ ∀ a, m.Mentions a ↔ n.Mentions a) ∧
      (s.checksum = t.checksum → (∀ a, a ∈ s ↔ a ∈ t) ∨
        (fed ≠ fed' ∧ Sha256.hash fed = Sha256.hash fed'))) ∧
    ((∀ a, a ∈ s ↔ a ∈ t) → s.checksum = t.checksum) := by
  have hmem := mem_of_makes hs
  have hmem' := mem_of_makes ht
  refine ⟨⟨hmem, hmem'⟩, ?_, ?_, ?_, ?_⟩
  · intro order horder
    exact ⟨s.concat, (feeds_iff horder).mpr rfl⟩
  · intro order fed horder hfed
    rw [(feeds_iff horder).mp hfed]
    rfl
  · intro order order' fed fed' horder horder' hfed hfed'
    have hbytes : fed = fed' ↔ ∀ a, a ∈ s ↔ a ∈ t := by
      rw [(feeds_iff horder).mp hfed, (feeds_iff horder').mp hfed', concat_eq_iff]
    have hbrought : (∀ a, a ∈ s ↔ a ∈ t) ↔ ∀ a, m.Mentions a ↔ n.Mentions a :=
      forall_congr' fun a => by rw [hmem, hmem']
    refine ⟨hbytes, hbytes.trans hbrought, fun hsum => ?_⟩
    by_cases hsame : ∀ a, a ∈ s ↔ a ∈ t
    · exact Or.inl hsame
    · have hhash : Sha256.hash s.concat = Sha256.hash t.concat := Hex.encode_injective hsum
      rw [← (feeds_iff horder).mp hfed, ← (feeds_iff horder').mp hfed'] at hhash
      exact Or.inr ⟨fun h => hsame (hbytes.mp h), hhash⟩
  · intro h
    rw [ext h]

/-- Two addresses that were put in one way, and in another way, each of them more than once and
once from a snapshot with a rest that is no address; and one of them alone. -/
theorem checksum_canonical_repeated :
    let a : Address := .repeated 0xab
    let c : Address := .repeated 0x07
    let m : Making := .insert (.extend (.collect [c]) [a, c, a]) c
    let n : Making := .join (.read (JsonForm.ofAddresses [a, c]).write)
      (.decode (a.bytes ++ a.bytes ++ [1, 2, 3]))
    ∃ s t u, Makes m s ∧ Makes n t ∧ Makes (.insert .empty a) u ∧
      s.Shows [c, a] ∧ t.Shows [a, c] ∧ u.Shows [a] ∧ s.checksum = t.checksum ∧
      ∃ fed alone, Feeds [c, a] fed ∧ Feeds [a, c] fed ∧ Feeds [a] alone ∧ fed ≠ alone := by
  intro a c m n
  have hset : Snapshot.decodeSet (a.bytes ++ a.bytes ++ [1, 2, 3]) = ofList [a] := by decide
  have hread : Json.read JsonForm.set (JsonForm.ofAddresses [a, c]).write =
      .ok (ofList [a, c]) := by
    have spelled := (Json.spells_write _ (JsonForm.sound_ofAddresses [a, c])).compact
    rw [Json.read_of_spells spelled]
    exact JsonForm.set_of_holds (JsonForm.holds_ofAddresses [a, c]) (Json.skip_of_spells spelled)
  have hs : Makes m (ofList [c, a]) := .insert (.extend (.collect [c]) [a, c, a]) c
  have hjoin : Makes n ((ofList [a, c]).insertAll [a]) :=
    .join (.read hread) (.decode _) (hset ▸ shows_ofList (List.nodup_singleton a))
  have ht : Makes n (ofList [a, c]) := hjoin
  have hu : Makes (.insert .empty a) (ofList [a]) := .insert .empty a
  have hca : (ofList [c, a]).Shows [c, a] := shows_ofList (by decide)
  have hac : (ofList [a, c]).Shows [a, c] := shows_ofList (by decide)
  have ha : (ofList [a]).Shows [a] := shows_ofList (List.nodup_singleton a)
  have hsame : ∀ x, x ∈ ofList [c, a] ↔ x ∈ ofList [a, c] := by
    intro x
    rw [mem_ofList, mem_ofList]
    exact (List.Perm.swap a c []).mem_iff
  obtain ⟨-, hsome, -, hbytes, hsum⟩ := checksum_canonical hs ht
  obtain ⟨-, hsome', -, hbytes', -⟩ := checksum_canonical ht hu
  obtain ⟨fed, hfed⟩ := hsome _ hca
  obtain ⟨fed', hfed'⟩ := hsome' _ hac
  obtain ⟨alone, halone⟩ := (checksum_canonical hu hu).2.1 _ ha
  have heq : fed = fed' := (hbytes _ _ _ _ hca hac hfed hfed').1.mpr hsame
  have hne : fed' ≠ alone := by
    intro h
    have hmem := (hbytes' _ _ _ _ hac ha hfed' halone).1.mp h c
    rw [mem_ofList, mem_ofList] at hmem
    exact absurd hmem (by decide)
  subst heq
  exact ⟨_, _, _, hs, ht, hu, hca, hac, ha, hsum hsame, fed, alone, hfed, hfed', halone, hne⟩

end AddressSet

end ProposerBook
