/-
The path of a web URL is read back.

The reader leaves no slash of either kind in a segment, nothing that has to be escaped, and no
dots that mean something.  A segment of which this holds is one piece when the text of the path is
split again, and it is escaped and added as it is.  So the segments are kept in their order, and
whatever such segments a path is put together from, it is read as these.
-/
import ProposerBook.Proofs.Text.Split
import ProposerBook.Proofs.Url.PercentEncoding
import ProposerBook.Url.Parse

namespace ProposerBook

namespace Url

open PercentEncoding (Stands)

/-- A segment as the reader leaves it. -/
structure IsSegment (s : List Char) : Prop where
  chars : ∀ c ∈ s, Stands escapedInPath c ∧ c ≠ '/' ∧ c ≠ '\\'
  stays : undot s ≠ ['.']
  descends : undot s ≠ ['.', '.']

theorem isSegment_nil : IsSegment [] := ⟨nofun, by decide, by decide⟩

/-! ### What the reader leaves -/

/-- A piece of a path has no slash, in whatever way it is escaped. -/
theorem chars_of_mem_splitSlashes {cs p : List Char} (hp : p ∈ splitSlashes .web cs) :
    ∀ c ∈ PercentEncoding.encode escapedInPath p, Stands escapedInPath c ∧ c ≠ '/' ∧ c ≠ '\\' := by
  have hescapes : PercentEncoding.escapeChars.Forall fun c =>
      Stands escapedInPath c ∧ c ≠ '/' ∧ c ≠ '\\' := by decide
  intro c hc
  rcases PercentEncoding.mem_encode hc with ⟨hmem, hstands⟩ | hescape
  · obtain ⟨hmapped, hslash⟩ := Text.mem_of_mem_splitOn hp hmem
    obtain ⟨d, -, hd⟩ := List.mem_map.mp hmapped
    refine ⟨hstands, hslash, ?_⟩
    rintro rfl
    by_cases hslashes : isSlash .web d = true
    · rw [if_pos hslashes] at hd
      exact absurd hd (by decide)
    · rw [if_neg hslashes] at hd
      rw [hd] at hslashes
      exact hslashes (by decide)
  · exact List.forall_iff_forall_mem.mp hescapes c hescape

section Adding

variable {P : List Char → Prop} {kind : SchemeKind}

/-- What holds of a piece if it is kept, and of the drive that it names if it names one. -/
def Kept (P : List Char → Prop) (kind : SchemeKind) (piece : List Char) : Prop :=
  (undot piece ≠ ['.'] → undot piece ≠ ['.', '.'] → P piece) ∧
    (kind = .file → P (piece.take 1 ++ [':']))

/-- What holds of the empty segment and of a piece that is kept holds of what a piece adds. -/
theorem forall_mem_addSegment {done : List (List Char)} {piece : List Char} {last : Bool}
    (empty : P []) (before : ∀ s ∈ done, P s) (kept : Kept P kind piece) :
    ∀ s ∈ addSegment kind done piece last, P s := by
  have hfinish : ∀ ss : List (List Char), (∀ s ∈ ss, P s) →
      ∀ s ∈ (if last then [] :: ss else ss), P s := by
    intro ss hss
    split
    · exact List.forall_mem_cons.mpr ⟨empty, hss⟩
    · exact hss
  unfold addSegment
  dsimp only
  by_cases hdescends : undot piece = ['.', '.']
  · rw [if_pos hdescends]
    cases done with
    | nil => exact hfinish [] nofun
    | cons t ts =>
      refine hfinish _ ?_
      split
      · exact before
      · exact (List.forall_mem_cons.mp before).2
  · rw [if_neg hdescends]
    by_cases hstays : undot piece = ['.']
    · rw [if_pos hstays]
      exact hfinish _ before
    · rw [if_neg hstays]
      split
      · rename_i hdrive
        exact List.forall_mem_cons.mpr ⟨kept.2 hdrive.1, before⟩
      · exact List.forall_mem_cons.mpr ⟨kept.1 hstays hdescends, before⟩

theorem forall_mem_addSegments {done pieces : List (List Char)} (empty : P [])
    (before : ∀ s ∈ done, P s) (kept : ∀ p ∈ pieces, Kept P kind p) :
    ∀ s ∈ addSegments kind done pieces, P s := by
  induction pieces generalizing done with
  | nil => exact before
  | cons p ps ih =>
    obtain ⟨hp, hps⟩ := List.forall_mem_cons.mp kept
    cases ps with
    | nil => exact forall_mem_addSegment empty before hp
    | cons q qs => exact ih (forall_mem_addSegment empty before hp) hps

theorem addSegment_last_ne_nil (kind : SchemeKind) (done : List (List Char)) (piece : List Char) :
    addSegment kind done piece true ≠ [] := by
  unfold addSegment
  dsimp only
  split
  · split
    · exact List.cons_ne_nil _ _
    · exact List.cons_ne_nil _ _
  · split
    · exact List.cons_ne_nil _ _
    · split
      · exact List.cons_ne_nil _ _
      · exact List.cons_ne_nil _ _

/-- There is a segment at least if there was a piece. -/
theorem addSegments_ne_nil {done pieces : List (List Char)} (nonempty : pieces ≠ []) :
    addSegments kind done pieces ≠ [] := by
  induction pieces generalizing done with
  | nil => exact absurd rfl nonempty
  | cons p ps ih =>
    cases ps with
    | nil => exact addSegment_last_ne_nil kind done p
    | cons q qs => exact ih (List.cons_ne_nil _ _)

end Adding

/-- **What is read as a path are segments.** -/
theorem isSegment_of_mem_pathSegments (cs : List Char) :
    (∀ s ∈ pathSegments .web cs, IsSegment s) ∧ pathSegments .web cs ≠ [] := by
  have hkept : ∀ p ∈ (splitSlashes .web cs).map (PercentEncoding.encode escapedInPath),
      Kept IsSegment .web p := by
    intro p hp
    obtain ⟨q, hq, rfl⟩ := List.mem_map.mp hp
    exact ⟨fun stays descends => ⟨chars_of_mem_splitSlashes hq, stays, descends⟩, nofun⟩
  have hsome : (splitSlashes .web cs).map (PercentEncoding.encode escapedInPath) ≠ [] := by
    rw [ne_eq, List.map_eq_nil_iff]
    exact List.splitOn_ne_nil _ _
  have hnone : ∀ s ∈ ([] : List (List Char)), IsSegment s := nofun
  have hadded := forall_mem_addSegments isSegment_nil hnone hkept
  unfold pathSegments
  dsimp only
  rw [if_neg (by decide)]
  refine ⟨fun s hs => hadded s (List.mem_reverse.mp hs), ?_⟩
  rw [ne_eq, List.reverse_eq_nil_iff]
  exact addSegments_ne_nil hsome

/-! ### Reading segments again -/

/-- Segments are added as they are. -/
theorem addSegments_of_isSegment {done ss : List (List Char)} (h : ∀ s ∈ ss, IsSegment s) :
    addSegments .web done ss = ss.reverse ++ done := by
  have hadd : ∀ (done : List (List Char)) (s : List Char) (last : Bool), IsSegment s →
      addSegment .web done s last = s :: done := by
    intro done s last hs
    unfold addSegment
    dsimp only
    rw [if_neg hs.descends, if_neg hs.stays, if_neg (by simp)]
  induction ss generalizing done with
  | nil => rfl
  | cons s ss ih =>
    obtain ⟨hs, hss⟩ := List.forall_mem_cons.mp h
    cases ss with
    | nil => exact hadd done s true hs
    | cons t ts =>
      have hmore : addSegments .web (s :: done) (t :: ts) = _ := ih hss
      show addSegments .web (addSegment .web done s false) (t :: ts) = _
      rw [hadd done s false hs, hmore]
      simp

/-- **Segments are read back** from their text behind the first slash. -/
theorem pathSegments_intercalate {ss : List (List Char)} (nonempty : ss ≠ [])
    (h : ∀ s ∈ ss, IsSegment s) : pathSegments .web (['/'].intercalate ss) = ss := by
  have hplain : ∀ c ∈ ['/'].intercalate ss, (if isSlash .web c then '/' else c) = c := by
    intro c hc
    rcases Text.mem_intercalate hc with rfl | ⟨s, hs, hmem⟩
    · decide
    · obtain ⟨-, hslash, hback⟩ := (h s hs).chars c hmem
      exact if_neg (by simp [isSlash, hslash, hback])
  have hsplit : splitSlashes .web (['/'].intercalate ss) = ss := by
    unfold splitSlashes
    rw [List.map_congr_left hplain, List.map_id']
    exact List.splitOn_intercalate '/' (fun s hs hmem => ((h s hs).chars '/' hmem).2.1 rfl) nonempty
  have hencode : ss.map (PercentEncoding.encode escapedInPath) = ss := by
    refine (List.map_congr_left fun s hs => ?_).trans (List.map_id ss)
    exact PercentEncoding.encode_of_stands fun c hc => ((h s hs).chars c hc).1
  unfold pathSegments
  dsimp only
  rw [hsplit, hencode, addSegments_of_isSegment h, if_neg (by decide), List.append_nil,
    List.reverse_reverse]

/-- The text of a path is a slash and its segments with slashes between them. -/
theorem toChars_segments {ss : List (List Char)} (nonempty : ss ≠ []) :
    (UrlPath.segments ss).toChars = '/' :: ['/'].intercalate ss := by
  show ss.flatMap ('/' :: ·) = _
  induction ss with
  | nil => exact absurd rfl nonempty
  | cons s ss ih =>
    cases ss with
    | nil => simp
    | cons t ts =>
      rw [List.flatMap_cons, ih (List.cons_ne_nil _ _), List.intercalate_cons_cons]
      simp

end Url

end ProposerBook
