/-
A web URL is read back from its text.

What the reader leaves of a web URL is in its escaped form, part by part, and no part has in it
what would end it.  So reading the text finds the same parts again, and leaves each of them as it
is.  The same holds of every URL that is put together from such parts, wherever they come from.
-/
import ProposerBook.Proofs.Url.Authority
import ProposerBook.Proofs.Url.Path

namespace ProposerBook

namespace Url

open PercentEncoding (Stands)

/-- A web URL as the reader leaves it. -/
structure Canonical (u : Url) : Prop where
  web : schemeKind u.scheme = .web
  authority : ∃ a, u.authority = some a ∧ CanonicalAuthority u.scheme a
  path : ∃ ss, u.path = .segments ss ∧ ss ≠ [] ∧ ∀ s ∈ ss, IsSegment s
  query : ∀ q, u.query = some q → ∀ c ∈ q, Stands (escapedInQuery true) c
  fragment : ∀ f, u.fragment = some f → ∀ c ∈ f, Stands escapedInFragment c

/-! ### What the reader leaves -/

theorem isSpecial_of_web {scheme : List Char} (web : schemeKind scheme = .web) :
    (schemeKind scheme).isSpecial = true := by
  rw [web]
  rfl

theorem schemeKind_of_http {scheme : List Char}
    (http : scheme = "http".toList ∨ scheme = "https".toList) : schemeKind scheme = .web := by
  rcases http with rfl | rfl
  · decide
  · decide

/-- The query and the fragment are escaped. -/
theorem stands_of_withRest {u : Url} (web : schemeKind u.scheme = .web) (rest : List Char) :
    (∀ q, (withRest u rest).query = some q → ∀ c ∈ q, Stands (escapedInQuery true) c) ∧
      ∀ f, (withRest u rest).fragment = some f → ∀ c ∈ f, Stands escapedInFragment c := by
  have hquery : PercentEncoding.escapeChars.Forall (Stands (escapedInQuery true)) := by decide
  have hfragment : PercentEncoding.escapeChars.Forall (Stands escapedInFragment) := by decide
  refine ⟨?_, ?_⟩
  · intro q hq c hc
    obtain ⟨cs, -, rfl⟩ := Option.map_eq_some_iff.mp hq
    rw [isSpecial_of_web web] at hc
    exact PercentEncoding.stands_of_mem_encode hquery hc
  · intro f hf c hc
    obtain ⟨cs, -, rfl⟩ := Option.map_eq_some_iff.mp hf
    exact PercentEncoding.stands_of_mem_encode hfragment hc

/-- The segments of the path of a web URL, which is never without one. -/
def webSegments : List Char → List (List Char)
  | [] => [[]]
  | c :: cs => pathSegments .web (if isSlash .web c then cs else c :: cs)

theorem isSegment_of_mem_webSegments (p : List Char) :
    webSegments p ≠ [] ∧ ∀ s ∈ webSegments p, IsSegment s := by
  cases p with
  | nil => exact ⟨List.cons_ne_nil _ _, List.forall_mem_cons.mpr ⟨isSegment_nil, nofun⟩⟩
  | cons c cs => exact (isSegment_of_mem_pathSegments _).symm

/-- How a web URL is read behind its scheme. -/
theorem parseHierarchy_web {scheme : List Char} (web : schemeKind scheme = .web) (cs : List Char) :
    parseHierarchy scheme cs = (parseAuthority scheme cs).map fun x =>
      withRest { scheme, authority := some x.1, path := .segments (webSegments (splitPath x.2).1) }
        (splitPath x.2).2 := by
  unfold parseHierarchy
  rw [web]
  cases parseAuthority scheme cs with
  | error e => rfl
  | ok x => rfl

theorem canonical_of_parseHierarchy {scheme cs : List Char} {u : Url}
    (web : schemeKind scheme = .web) (read : parseHierarchy scheme cs = .ok u) : u.Canonical := by
  rw [parseHierarchy_web web] at read
  obtain ⟨x, hauthority, rfl⟩ := map_eq_ok_iff.mp read
  have hpath := isSegment_of_mem_webSegments (splitPath x.2).1
  obtain ⟨hquery, hfragment⟩ := stands_of_withRest
    (u := { scheme, authority := some x.1, path := .segments (webSegments (splitPath x.2).1) })
    web (splitPath x.2).2
  exact ⟨web, ⟨x.1, rfl, canonical_of_parseAuthority web hauthority⟩, ⟨_, rfl, hpath⟩, hquery,
    hfragment⟩

theorem scheme_of_parseHierarchy {scheme cs : List Char} {u : Url}
    (read : parseHierarchy scheme cs = .ok u) : u.scheme = scheme := by
  obtain ⟨x, -, hend⟩ := bind_eq_ok_iff.mp read
  cases hend
  rfl

theorem scheme_of_parsePlain {scheme cs : List Char} {u : Url}
    (read : parsePlain scheme cs = .ok u) : u.scheme = scheme := by
  unfold parsePlain at read
  split at read
  · exact scheme_of_parseHierarchy read
  · cases read
    rfl
  · cases read
    rfl

theorem scheme_of_parseFile {scheme cs : List Char} {u : Url} (read : parseFile scheme cs = .ok u) :
    u.scheme = scheme := by
  unfold parseFile at read
  dsimp only at read
  split at read
  · split at read
    · split at read
      · cases read
        rfl
      · obtain ⟨h, -, hend⟩ := bind_eq_ok_iff.mp read
        cases hend
        rfl
    · cases read
      rfl
  · cases read
    rfl

/-- **What is read as a web URL is one that the reader leaves.** -/
theorem canonical_of_parse {s : String} {u : Url} (read : parse s = .ok u)
    (web : schemeKind u.scheme = .web) : u.Canonical := by
  unfold parse at read
  split at read
  · cases read
  rename_i scheme rest _
  cases hkind : schemeKind scheme with
  | web =>
    rw [hkind] at read
    exact canonical_of_parseHierarchy hkind read
  | file =>
    rw [hkind] at read
    rw [scheme_of_parseFile read, hkind] at web
    cases web
  | other =>
    rw [hkind] at read
    rw [scheme_of_parsePlain read, hkind] at web
    cases web

/-! ### Characters of a URL -/

/-- A character of a path may stand in a URL and does not end the path. -/
theorem inPath_of_stands {c : Char} (h : Stands escapedInPath c) :
    0x20 < c.toNat ∧ endsPath c = false := by
  have hascii := h.1
  revert h
  exact char_of_lt c hascii (by decide +kernel)

theorem inQuery_of_stands {c : Char} (h : Stands (escapedInQuery true) c) :
    0x20 < c.toNat ∧ c ≠ '#' := by
  have hascii := h.1
  revert h
  exact char_of_lt c hascii (by decide +kernel)

theorem inFragment_of_stands {c : Char} (h : Stands escapedInFragment c) : 0x20 < c.toNat := by
  have hascii := h.1
  revert h
  exact char_of_lt c hascii (by decide +kernel)

/-- Nothing is cleaned off a text without controls and spaces. -/
theorem clean_of_shows {cs : List Char} (h : ∀ c ∈ cs, 0x20 < c.toNat) : clean cs = cs := by
  have hmargin : ∀ ds : List Char, (∀ c ∈ ds, 0x20 < c.toNat) → ds.dropWhile isMargin = ds := by
    intro ds hds
    cases ds with
    | nil => rfl
    | cons c ds =>
      have hc := hds c List.mem_cons_self
      exact List.dropWhile_cons_of_neg (by simp [isMargin]; omega)
  have hkept : ∀ c ∈ cs, (!isIgnored c) = true := by
    intro c hc
    have hshows := h c hc
    have hother : ∀ d, d.toNat ≤ 0x20 → c ≠ d := by
      rintro d hd rfl
      omega
    simp [isIgnored, hother '\t' (by decide), hother '\n' (by decide), hother '\r' (by decide)]
  unfold clean
  rw [hmargin cs h, hmargin cs.reverse fun c hc => h c (List.mem_reverse.mp hc),
    List.reverse_reverse]
  exact List.filter_eq_self.mpr hkept

/-! ### Schemes -/

theorem mem_defaultPorts_of_web {scheme : List Char} (web : schemeKind scheme = .web) :
    scheme ∈ defaultPorts.map Prod.fst := by
  have hsome : (defaultPort? scheme).isSome = true := by
    unfold schemeKind at web
    by_cases hfile : (scheme == "file".toList) = true
    · rw [if_pos hfile] at web
      cases web
    · rw [if_neg hfile] at web
      by_cases hport : (defaultPort? scheme).isSome = true
      · exact hport
      · rw [if_neg hport] at web
        cases web
  obtain ⟨p, hp⟩ := Option.isSome_iff_exists.mp hsome
  obtain ⟨l, m, heq, -⟩ := List.lookup_eq_some_iff.mp hp
  rw [heq]
  simp

/-- The scheme of a web URL is found again. -/
theorem splitScheme?_of_web {scheme : List Char} (web : schemeKind scheme = .web)
    (rest : List Char) : splitScheme? (scheme ++ ':' :: rest) = some (scheme, rest) := by
  have hall : ∀ s ∈ defaultPorts.map Prod.fst, s.head?.any Char.isAlpha = true ∧
      s.all isSchemeChar = true ∧ s.map Char.toLower = s := by decide
  obtain ⟨halpha, hchars, hlower⟩ := hall scheme (mem_defaultPorts_of_web web)
  have htake : (scheme ++ ':' :: rest).takeWhile isSchemeChar = scheme := by
    rw [List.takeWhile_append_of_pos (List.all_eq_true.mp hchars),
      List.takeWhile_cons_of_neg (by decide), List.append_nil]
  have hdrop : (scheme ++ ':' :: rest).dropWhile isSchemeChar = ':' :: rest := by
    rw [List.dropWhile_append_of_pos (List.all_eq_true.mp hchars),
      List.dropWhile_cons_of_neg (by decide)]
  unfold splitScheme?
  rw [htake, hdrop, hlower]
  cases scheme with
  | nil => cases halpha
  | cons c cs =>
    have hletter : c.isAlpha = true := halpha
    simp [hletter]

/-! ### Reading a URL again -/

/-- The query and the fragment are read back. -/
theorem withRest_chars {u : Url} (canonical : u.Canonical) :
    withRest { u with query := none, fragment := none } (u.queryChars ++ u.fragmentChars) = u := by
  have hspecial := isSpecial_of_web canonical.web
  obtain ⟨scheme, authority, path, query, fragment⟩ := u
  have hquery : ∀ q, query = some q → (∀ c ∈ q, (c != '#') = true) ∧
      PercentEncoding.encode (escapedInQuery true) q = q := by
    intro q hq
    have hstands := canonical.query q hq
    refine ⟨fun c hc => bne_iff_ne.mpr (inQuery_of_stands (hstands c hc)).2, ?_⟩
    exact PercentEncoding.encode_of_stands hstands
  have hfragment : ∀ f, fragment = some f → PercentEncoding.encode escapedInFragment f = f :=
    fun f hf => PercentEncoding.encode_of_stands (canonical.fragment f hf)
  dsimp only at hspecial
  unfold withRest queryChars fragmentChars
  dsimp only
  rw [hspecial]
  cases query with
  | none =>
    cases fragment with
    | none => rfl
    | some f => simp [hfragment f rfl]
  | some q =>
    obtain ⟨hgoes, hencode⟩ := hquery q rfl
    have hmarked : ∀ c ∈ '?' :: q, (c != '#') = true := List.forall_mem_cons.mpr ⟨rfl, hgoes⟩
    cases fragment with
    | none =>
      simp only [List.append_nil, List.takeWhile_eq_self_iff.mpr hgoes,
        List.dropWhile_eq_nil_iff.mpr hmarked, Option.map_some, hencode, Option.map_none]
    | some f =>
      have htake : (q ++ '#' :: f).takeWhile (· != '#') = q := by
        rw [List.takeWhile_append_of_pos hgoes, List.takeWhile_cons_of_neg (by decide),
          List.append_nil]
      have hdrop : ('?' :: q ++ '#' :: f).dropWhile (· != '#') = '#' :: f := by
        rw [List.dropWhile_append_of_pos hmarked, List.dropWhile_cons_of_neg (by decide)]
      rw [hdrop]
      simp only [List.cons_append, htake, Option.map_some, hencode, hfragment f rfl]

theorem inPath_of_mem_segments {ss : List (List Char)} (segments : ∀ s ∈ ss, IsSegment s)
    {c : Char} (hc : c ∈ (UrlPath.segments ss).toChars) :
    0x20 < c.toNat ∧ endsPath c = false := by
  obtain ⟨s, hs, hmem⟩ := List.mem_flatMap.mp hc
  rcases List.mem_cons.mp hmem with rfl | hmem
  · decide
  · exact inPath_of_stands ((segments s hs).chars c hmem).1

/-- The path ends where the query or the fragment begins. -/
theorem splitPath_chars {u : Url} {ss : List (List Char)} (segments : ∀ s ∈ ss, IsSegment s) :
    splitPath ((UrlPath.segments ss).toChars ++ (u.queryChars ++ u.fragmentChars)) =
      ((UrlPath.segments ss).toChars, u.queryChars ++ u.fragmentChars) := by
  have hgoes : ∀ c ∈ (UrlPath.segments ss).toChars, (!endsPath c) = true := by
    intro c hc
    rw [(inPath_of_mem_segments segments hc).2]
    rfl
  have hends : u.queryChars ++ u.fragmentChars = [] ∨
      ∃ c cs, u.queryChars ++ u.fragmentChars = c :: cs ∧ (!endsPath c) = false := by
    unfold queryChars fragmentChars
    cases u.query with
    | some q => exact Or.inr ⟨'?', _, rfl, by decide⟩
    | none =>
      cases u.fragment with
      | some f => exact Or.inr ⟨'#', _, rfl, by decide⟩
      | none => exact Or.inl rfl
  unfold splitPath
  rw [List.takeWhile_append_of_pos hgoes, List.dropWhile_append_of_pos hgoes]
  rcases hends with hnil | ⟨c, cs, hcs, hc⟩
  · rw [hnil]
    simp
  · rw [hcs, List.takeWhile_cons_of_neg (by simp [hc]), List.dropWhile_cons_of_neg (by simp [hc]),
      List.append_nil]

/-- The text of a web URL is the texts of its parts. -/
theorem Canonical.exists_parts {u : Url} (canonical : u.Canonical) :
    ∃ a ss, u.authority = some a ∧ CanonicalAuthority u.scheme a ∧ u.path = .segments ss ∧
      ss ≠ [] ∧ (∀ s ∈ ss, IsSegment s) ∧
      u.toChars = u.scheme ++ ':' :: '/' :: '/' :: (a.toChars ++
        ((UrlPath.segments ss).toChars ++ (u.queryChars ++ u.fragmentChars))) := by
  obtain ⟨a, hauthority, ha⟩ := canonical.authority
  obtain ⟨ss, hpath, hsome, hss⟩ := canonical.path
  refine ⟨a, ss, hauthority, ha, hpath, hsome, hss, ?_⟩
  unfold toChars authorityChars pathChars
  rw [hauthority, hpath]
  simp

/-- Every character of the text of a web URL shows. -/
theorem shows_of_mem_toChars {u : Url} (canonical : u.Canonical) {c : Char} (hc : c ∈ u.toChars) :
    0x20 < c.toNat := by
  obtain ⟨a, ss, -, ha, -, -, hss, htext⟩ := canonical.exists_parts
  have hscheme : ∀ s ∈ defaultPorts.map Prod.fst, s.Forall fun c => 0x20 < c.toNat := by decide
  have hquery : c ∈ u.queryChars → 0x20 < c.toNat := by
    intro hmem
    unfold queryChars at hmem
    cases hq : u.query with
    | none => simp [hq] at hmem
    | some q =>
      rw [hq] at hmem
      rcases List.mem_cons.mp hmem with rfl | hmem
      · decide
      · exact (inQuery_of_stands (canonical.query q hq c hmem)).1
  have hfragment : c ∈ u.fragmentChars → 0x20 < c.toNat := by
    intro hmem
    unfold fragmentChars at hmem
    cases hf : u.fragment with
    | none => simp [hf] at hmem
    | some f =>
      rw [hf] at hmem
      rcases List.mem_cons.mp hmem with rfl | hmem
      · decide
      · exact inFragment_of_stands (canonical.fragment f hf c hmem)
  rw [htext] at hc
  simp only [List.mem_append, List.mem_cons] at hc
  rcases hc with hc | rfl | rfl | rfl | hc | hc | hc | hc
  · have hletters := hscheme u.scheme (mem_defaultPorts_of_web canonical.web)
    exact List.forall_iff_forall_mem.mp hletters c hc
  · decide
  · decide
  · decide
  · exact (inAuthority_of_mem ha hc).1
  · exact (inPath_of_mem_segments hss hc).1
  · exact hquery hc
  · exact hfragment hc

/-- **A web URL is read back from its text.** -/
theorem parse_toText {u : Url} (canonical : u.Canonical) : parse u.toText = .ok u := by
  obtain ⟨a, ss, hauthority, ha, hpath, hsome, hss, htext⟩ := canonical.exists_parts
  have hclean := clean_of_shows fun c hc => shows_of_mem_toChars canonical (c := c) hc
  generalize hrest : u.queryChars ++ u.fragmentChars = rest at htext
  have hslashes : ('/' :: '/' :: (a.toChars ++ ((UrlPath.segments ss).toChars ++
      rest))).dropWhile (isSlash .web) = a.toChars ++ ((UrlPath.segments ss).toChars ++ rest) := by
    rw [List.dropWhile_cons_of_pos rfl, List.dropWhile_cons_of_pos rfl]
    exact dropWhile_isSlash_toChars ha _
  have hread : parseAuthority u.scheme (a.toChars ++ ((UrlPath.segments ss).toChars ++ rest)) =
      .ok (a, (UrlPath.segments ss).toChars ++ rest) := by
    rw [toChars_segments hsome]
    exact parseAuthority_toChars canonical.web ha _
  have hsplit : splitPath ((UrlPath.segments ss).toChars ++ rest) =
      ((UrlPath.segments ss).toChars, rest) := by
    rw [← hrest]
    exact splitPath_chars hss
  have hsegments : webSegments (UrlPath.segments ss).toChars = ss := by
    rw [toChars_segments hsome]
    exact pathSegments_intercalate hsome hss
  -- The reader takes the text apart in the order in which it was put together.
  unfold parse toText
  rw [String.toList_ofList, hclean, htext, splitScheme?_of_web canonical.web]
  dsimp only
  rw [canonical.web]
  dsimp only
  rw [hslashes, parseHierarchy_web canonical.web, hread]
  show Except.ok (withRest { scheme := u.scheme, authority := some a, path := .segments (webSegments
    (splitPath ((UrlPath.segments ss).toChars ++ rest)).1) }
      (splitPath ((UrlPath.segments ss).toChars ++ rest)).2) = _
  rw [hsplit]
  dsimp only
  rw [hsegments, ← hauthority, ← hpath, ← hrest]
  exact congrArg Except.ok (withRest_chars canonical)

end Url

end ProposerBook
