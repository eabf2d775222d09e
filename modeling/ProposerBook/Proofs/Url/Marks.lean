/-
A query begins at the first question mark.

Whatever the scheme, what the reader puts before the query has no mark in it at which a query or a
fragment would begin: a scheme, a host and a port have no such characters, and in credentials and
in a path they are escaped.  What comes after the path is taken from the text as it is, so that
there is a query only if the text has a mark.
-/
import ProposerBook.Proofs.Address
import ProposerBook.Proofs.Url.Reparse

namespace ProposerBook

namespace Url

/-- No character of the text ends a path. -/
def Unmarked (cs : List Char) : Prop := ∀ c ∈ cs, endsPath c = false

instance (cs : List Char) : Decidable (Unmarked cs) :=
  List.decidableBAll (fun c => endsPath c = false) cs

theorem unmarked_nil : Unmarked [] := nofun

theorem Unmarked.append {l r : List Char} (hl : Unmarked l) (hr : Unmarked r) :
    Unmarked (l ++ r) :=
  List.forall_mem_append.mpr ⟨hl, hr⟩

theorem Unmarked.cons {c : Char} {cs : List Char} (hc : endsPath c = false) (hcs : Unmarked cs) :
    Unmarked (c :: cs) :=
  List.forall_mem_cons.mpr ⟨hc, hcs⟩

/-- What is escaped has a mark only where one stood for itself. -/
theorem unmarked_encode {escaped : Char → Bool} {cs : List Char}
    (h : ∀ c ∈ cs, escaped c = false → endsPath c = false) :
    Unmarked (PercentEncoding.encode escaped cs) := by
  have hescapes : PercentEncoding.escapeChars.Forall fun c => endsPath c = false := by decide
  intro c hc
  rcases PercentEncoding.mem_encode hc with ⟨hmem, hstands⟩ | hescape
  · exact h c hmem hstands.2
  · exact List.forall_iff_forall_mem.mp hescapes c hescape

theorem endsPath_eq_true_iff {c : Char} : endsPath c = true ↔ c = '?' ∨ c = '#' := by
  unfold endsPath
  rw [Bool.or_eq_true, beq_iff_eq, beq_iff_eq]

/-- In a path the marks are escaped. -/
theorem endsPath_of_escapedInPath {c : Char} (h : escapedInPath c = false) :
    endsPath c = false := by
  rw [Bool.eq_false_iff]
  intro hmark
  rcases endsPath_eq_true_iff.mp hmark with rfl | rfl
  · exact absurd h (by decide)
  · exact absurd h (by decide)

/-! ### Schemes -/

theorem unmarked_of_splitScheme? {cs scheme rest : List Char}
    (read : splitScheme? cs = some (scheme, rest)) : Unmarked scheme ∧ rest ⊆ cs := by
  have hmarks : ∀ {c}, isSchemeChar c = true → endsPath c.toLower = false := by
    intro c hc
    rcases Hex.toLower_cases c with hsame | ⟨hlow, hhigh⟩
    · rw [hsame, Bool.eq_false_iff]
      intro hmark
      rcases endsPath_eq_true_iff.mp hmark with rfl | rfl
      · exact absurd hc (by decide)
      · exact absurd hc (by decide)
    -- A capital becomes a small letter.
    · revert hlow
      exact char_of_lt c (Nat.lt_succ_of_le hhigh) (by decide)
  unfold splitScheme? at read
  split at read
  · cases read
  · split at read
    · cases read
    split at read
    · rename_i hdrop
      cases read
      refine ⟨?_, ?_⟩
      · intro c hc
        obtain ⟨d, hd, rfl⟩ := List.mem_map.mp hc
        exact hmarks (List.mem_takeWhile_imp hd)
      · intro c hc
        refine (List.dropWhile_sublist isSchemeChar).subset ?_
        rw [hdrop]
        exact List.mem_cons_of_mem _ hc
    · cases read

/-! ### Paths -/

theorem dropEmpty_subset (ss : List (List Char)) : dropEmpty ss ⊆ ss := by
  induction ss using dropEmpty.induct with
  | case1 s ss ih =>
    rw [dropEmpty]
    exact List.subset_cons_of_subset _ ih
  | case2 ss other =>
    rw [dropEmpty]
    · exact List.Subset.refl ss
    · exact other

/-- No segment of a path has a mark in it. -/
theorem unmarked_of_mem_pathSegments {kind : SchemeKind} {cs s : List Char}
    (hs : s ∈ pathSegments kind cs) : Unmarked s := by
  have hkept : ∀ p ∈ (splitSlashes kind cs).map (PercentEncoding.encode escapedInPath),
      Kept Unmarked kind p := by
    intro p hp
    obtain ⟨q, -, rfl⟩ := List.mem_map.mp hp
    have hpiece : Unmarked (PercentEncoding.encode escapedInPath q) :=
      unmarked_encode fun c _ => endsPath_of_escapedInPath
    have hletter := fun c hc => hpiece c (List.mem_of_mem_take (i := 1) hc)
    exact ⟨fun _ _ => hpiece, fun _ => Unmarked.append hletter (by decide)⟩
  have hnone : ∀ s ∈ ([] : List (List Char)), Unmarked s := nofun
  have hadded := forall_mem_addSegments unmarked_nil hnone hkept
  unfold pathSegments at hs
  dsimp only at hs
  split at hs
  · exact hadded s (List.mem_reverse.mp (dropEmpty_subset _ hs))
  · exact hadded s (List.mem_reverse.mp hs)

theorem unmarked_segments {ss : List (List Char)} (h : ∀ s ∈ ss, Unmarked s) :
    Unmarked (UrlPath.segments ss).toChars := by
  intro c hc
  obtain ⟨s, hs, hmem⟩ := List.mem_flatMap.mp hc
  exact (Unmarked.cons (by decide) (h s hs)) c hmem

/-- The path ends at the first mark, and what is left is of the text. -/
theorem unmarked_splitPath (cs : List Char) :
    Unmarked (splitPath cs).1 ∧ (splitPath cs).2 ⊆ cs := by
  refine ⟨fun c hc => ?_, (List.dropWhile_sublist _).subset⟩
  simpa using List.mem_takeWhile_imp (p := fun c => !endsPath c) hc

/-! ### Authorities -/

theorem InAuthority.endsPath {c : Char} (h : InAuthority c) : endsPath c = false :=
  (Bool.or_eq_false_iff.mp h.2).2

theorem unmarked_of_canonical {h : Host} (canonical : h.Canonical) : Unmarked h.toChars :=
  fun _ hc => (inAuthority_of_mem_host canonical hc).1.endsPath

theorem unmarked_of_hostOf {kind : SchemeKind} {cs : List Char} {h : Host}
    (read : hostOf kind cs = .ok (some h)) : Unmarked h.toChars := by
  have hspecial : (if cs.isEmpty then .error .emptyHost else (specialHost cs).map some) =
      .ok (some h) → Unmarked h.toChars := by
    intro hread
    split at hread
    · cases hread
    · obtain ⟨h', hhost, heq⟩ := map_eq_ok_iff.mp hread
      cases heq
      exact unmarked_of_canonical (canonical_of_specialHost hhost)
  cases kind with
  | web => exact hspecial read
  | file => exact hspecial read
  | other =>
    have hplain : plainHost cs = .ok (some h) := read
    unfold plainHost at hplain
    cases hbracket : bracketed? cs with
    | some r =>
      rw [hbracket] at hplain
      obtain ⟨h', hhost, heq⟩ := map_eq_ok_iff.mp hplain
      cases heq
      subst hhost
      exact unmarked_of_canonical (canonical_of_bracketed hbracket)
    | none =>
      rw [hbracket] at hplain
      dsimp only at hplain
      split at hplain
      · cases hplain
      rename_i hfine
      split at hplain
      · cases hplain
      cases hplain
      refine unmarked_encode fun c hc _ => ?_
      rw [Bool.eq_false_iff]
      intro hmark
      refine hfine (List.any_eq_true.mpr ⟨c, hc, ?_⟩)
      rcases endsPath_eq_true_iff.mp hmark with rfl | rfl
      · decide
      · decide

theorem unmarked_authority {a : Authority} (user : List Char)
    (username : a.username = (credentials user).1) (password : a.password = (credentials user).2)
    (host : ∀ h, a.host = some h → Unmarked h.toChars) : Unmarked a.toChars := by
  have hstands : ∀ {cs : List Char},
      (∀ c ∈ cs, PercentEncoding.Stands escapedInCredentials c) → Unmarked cs :=
    fun h c hc => (inAuthority_of_stands (h c hc)).1.endsPath
  obtain ⟨hname, hword⟩ := stands_of_mem_credentials user
  unfold Authority.toChars Authority.credentials
  rw [username, password]
  refine ((Unmarked.append ((hstands hname).append ?_) ?_).append ?_).append ?_
  · split
    · exact unmarked_nil
    · exact (hstands hword).cons (by decide)
  · split
    · exact unmarked_nil
    · decide
  · cases hhost : a.host with
    | none => exact unmarked_nil
    | some h => exact host h hhost
  · exact fun c hc => (inAuthority_of_mem_portChars hc).1.endsPath

theorem splitHost_subset (inside : Bool) (cs : List Char) : (splitHost inside cs).2 ⊆ cs := by
  induction cs generalizing inside with
  | nil => exact List.Subset.refl _
  | cons c cs ih =>
    unfold splitHost
    split
    · exact List.Subset.refl _
    · exact List.subset_cons_of_subset c (ih _)

theorem readPort_subset {n m : Nat} {cs rest : List Char} (read : readPort n cs = .ok (m, rest)) :
    rest ⊆ cs := by
  induction cs generalizing n with
  | nil =>
    cases read
    exact List.Subset.refl _
  | cons c cs ih =>
    unfold readPort at read
    split at read
    · dsimp only at read
      split at read
      · exact List.subset_cons_of_subset c (ih read)
      · cases read
    · split at read
      · cases read
        exact List.Subset.refl _
      · cases read

theorem port_subset {scheme cs rest : List Char} {p : Option UInt16}
    (read : port scheme cs = .ok (p, rest)) : rest ⊆ cs := by
  unfold port at read
  split at read
  · obtain ⟨x, hread, hend⟩ := bind_eq_ok_iff.mp read
    cases hend
    exact List.subset_cons_of_subset _ (readPort_subset hread)
  · cases read
    exact List.Subset.refl _

/-- Whatever the scheme, an authority has no mark in it, and what comes after it is of the text. -/
theorem unmarked_of_parseAuthority {scheme cs rest : List Char} {a : Authority}
    (read : parseAuthority scheme cs = .ok (a, rest)) : Unmarked a.toChars ∧ rest ⊆ cs := by
  obtain ⟨user, text, after, htext, hafter, hcredentials, hhost, hport⟩ :=
    exists_of_parseAuthority read
  obtain ⟨husername, hpassword⟩ := Prod.mk.inj hcredentials
  refine ⟨unmarked_authority user husername hpassword fun h hsome => ?_, ?_⟩
  · rw [hsome] at hhost
    exact unmarked_of_hostOf hhost
  · have hfrom := List.Subset.trans (splitHost_subset false text) htext
    exact List.Subset.trans (port_subset hport) (List.append_subset.mpr ⟨hfrom, hafter⟩)

/-! ### Whole URLs -/

/-- `u` is `scheme` with parts that have no mark in them, and then what is read from characters of
`cs` as a query and a fragment. -/
def Fronted (scheme cs : List Char) (u : Url) : Prop :=
  ∃ a p rest, u = withRest { scheme, authority := a, path := p } rest ∧
    (∀ x, a = some x → Unmarked x.toChars) ∧ Unmarked p.toChars ∧ rest ⊆ cs

theorem fronted_of_parseHierarchy {scheme cs : List Char} {u : Url}
    (read : parseHierarchy scheme cs = .ok u) : Fronted scheme cs u := by
  obtain ⟨⟨a, after⟩, hauthority, hend⟩ := bind_eq_ok_iff.mp read
  obtain ⟨ha, hafter⟩ := unmarked_of_parseAuthority hauthority
  cases hend
  refine ⟨some a, _, _, rfl, ?_, ?_, List.Subset.trans (unmarked_splitPath after).2 hafter⟩
  · rintro _ ⟨⟩
    exact ha
  · refine unmarked_segments fun s hs => ?_
    split at hs
    · split at hs
      · rw [List.mem_singleton.mp hs]
        exact unmarked_nil
      · cases hs
    · exact unmarked_of_mem_pathSegments hs

theorem fronted_of_parsePlain {scheme cs : List Char} {u : Url}
    (read : parsePlain scheme cs = .ok u) : Fronted scheme cs u := by
  unfold parsePlain at read
  split at read
  · rename_i cs
    obtain ⟨a, p, rest, hu, ha, hp, hrest⟩ := fronted_of_parseHierarchy read
    exact ⟨a, p, rest, hu, ha, hp, fun c hc => by simp [hrest hc]⟩
  · rename_i cs _
    cases read
    refine ⟨none, _, _, rfl, nofun, ?_, ?_⟩
    · exact unmarked_segments fun s hs => unmarked_of_mem_pathSegments hs
    · exact List.subset_cons_of_subset _ (unmarked_splitPath cs).2
  · cases read
    refine ⟨none, _, _, rfl, nofun, ?_, (unmarked_splitPath cs).2⟩
    exact unmarked_encode fun c hc _ => (unmarked_splitPath cs).1 c hc

/-- A file on no drive may have a host. -/
theorem fronted_file {scheme cs ds : List Char} (host : Option Host)
    (unmarked : ∀ h, host = some h → Unmarked h.toChars) (within : ds ⊆ cs) (p : List Char) :
    Fronted scheme cs (withRest ⟨scheme, some { host := if namesDrive p then none else host },
      .segments (pathSegments .file p), none, none⟩ (splitPath ds).2) := by
  refine ⟨_, _, _, rfl, ?_, ?_, List.Subset.trans (unmarked_splitPath ds).2 within⟩
  · rintro _ ⟨⟩
    refine unmarked_authority [] rfl rfl fun h hh => unmarked h ?_
    dsimp only at hh
    split at hh
    · cases hh
    · exact hh
  · exact unmarked_segments fun s hs => unmarked_of_mem_pathSegments hs

theorem fronted_of_parseFile {scheme cs : List Char} {u : Url}
    (read : parseFile scheme cs = .ok u) : Fronted scheme cs u := by
  unfold parseFile at read
  dsimp only at read
  split at read
  · rename_i c d ds
    split at read
    · split at read
      · cases read
        exact fronted_file none nofun (fun c hc => by simp [hc]) _
      · obtain ⟨h, hread, hend⟩ := bind_eq_ok_iff.mp read
        cases hend
        refine fronted_file _ ?_ (fun c hc => ?_) _
        · have hcanonical := unmarked_of_canonical (canonical_of_specialHost hread)
          intro h' hh
          split at hh
          · split at hh
            · cases hh
            · cases hh
              exact hcanonical
          · cases hh
            exact hcanonical
        · simp [List.mem_of_mem_drop hc]
    · cases read
      exact fronted_file none nofun (List.Subset.refl _) _
  · cases read
    exact fronted_file none nofun (List.Subset.refl _) _

/-- Whatever is read as a URL has its parts from characters of the text. -/
theorem fronted_of_parse {s : String} {u : Url} (read : parse s = .ok u) :
    ∃ scheme cs, Unmarked scheme ∧ Fronted scheme cs u ∧ cs ⊆ s.toList := by
  unfold parse at read
  split at read
  · cases read
  rename_i scheme rest hscheme
  obtain ⟨hunmarked, hrest⟩ := unmarked_of_splitScheme? hscheme
  have hclean : clean s.toList ⊆ s.toList := by
    intro c hc
    have hinner := List.mem_of_mem_filter hc
    have houter := (List.dropWhile_sublist _).subset (List.mem_reverse.mp hinner)
    exact (List.dropWhile_sublist _).subset (List.mem_reverse.mp houter)
  refine ⟨scheme, rest, hunmarked, ?_, List.Subset.trans hrest hclean⟩
  split at read
  · obtain ⟨a, p, rest', hu, ha, hp, hrest'⟩ := fronted_of_parseHierarchy read
    exact ⟨a, p, rest', hu, ha, hp, List.Subset.trans hrest' (List.dropWhile_sublist _).subset⟩
  · exact fronted_of_parseFile read
  · exact fronted_of_parsePlain read

/-- **Nothing before the query of a URL has a mark in it**, whatever the scheme. -/
theorem unmarked_of_parse {s : String} {u : Url} (read : parse s = .ok u) :
    Unmarked u.scheme ∧ Unmarked u.authorityChars ∧ Unmarked u.pathChars := by
  obtain ⟨scheme, cs, hscheme, ⟨a, p, rest, rfl, ha, hp, -⟩, -⟩ := fronted_of_parse read
  refine ⟨hscheme, ?_, ?_⟩
  · unfold authorityChars withRest
    cases a with
    | none => exact unmarked_nil
    | some a => exact ((ha a rfl).cons (by decide)).cons (by decide)
  · unfold pathChars withRest
    dsimp only
    split
    · exact (hp.cons (by decide)).cons (by decide)
    · exact hp

/-- **A text without a mark has no query.** -/
theorem query_of_unmarked {s : String} {u : Url} (read : parse s = .ok u)
    (unmarked : Unmarked s.toList) : u.query = none := by
  obtain ⟨scheme, cs, -, ⟨a, p, rest, rfl, -, -, hrest⟩, hcs⟩ := fronted_of_parse read
  unfold withRest
  dsimp only
  split
  · have hmark := unmarked '?' (hcs (hrest List.mem_cons_self))
    exact absurd hmark (by decide)
  · rfl

/-- A URL with neither a query nor a fragment has no mark in its text. -/
theorem unmarked_toChars {s : String} {u : Url} (read : parse s = .ok u) (query : u.query = none)
    (fragment : u.fragment = none) : Unmarked u.toChars := by
  obtain ⟨hscheme, hauthority, hpath⟩ := unmarked_of_parse read
  unfold toChars queryChars fragmentChars
  rw [query, fragment]
  refine hscheme.append (Unmarked.cons (by decide) ?_)
  exact ((hauthority.append hpath).append unmarked_nil).append unmarked_nil

end Url

end ProposerBook
