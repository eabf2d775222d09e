/-
The names of lists arrive as they are.

A request for lists has in its target the path, in which no query begins, then a question mark and
the names in form encoding.  So the server finds the query where the client has put it, and reads
from it the names that were asked for, whatever they are made up of.
-/
import Mathlib.Data.Finset.Sort
import ProposerBook.Proofs.Proposer.SlotMap
import ProposerBook.Proofs.Relay.Location
import ProposerBook.Proofs.Text.ByteOrder
import ProposerBook.Proofs.Url.FormEncoding
import ProposerBook.Proofs.Url.Marks

namespace ProposerBook

/-! ### What a server is asked -/

namespace HttpServer

theorem exchange_requests (s : HttpServer) (left : Nat) (q : HttpRequest) :
    (s.exchange left q).2.requests = s.requests ++ if s.reactions.isEmpty then [] else [q] := by
  unfold exchange
  split
  · rename_i hnone
    rw [hnone]
    exact (List.append_nil _).symm
  · rename_i hsome
    rw [hsome]
    rfl
  · rename_i hsome
    rw [hsome]
    rfl

/-- What a server was asked before comes before all that it is asked. -/
theorem requests_prefix (n : Nat) (s : HttpServer) (left : Nat) (url : Url) (q : HttpRequest) :
    (s.exchange left { q with target := url.requestTarget }).2.requests <+:
      (follow n s left url q).2.requests := by
  induction n generalizing s left url q with
  | zero => exact List.prefix_rfl
  | succ n ih =>
    unfold follow
    dsimp only
    split
    · exact List.prefix_rfl
    · split
      · exact List.prefix_rfl
      · split
        -- The client goes elsewhere, and what it asks there comes behind.
        · refine List.IsPrefix.trans ?_ (ih _ _ _ _)
          rw [exchange_requests (s.exchange _ _).2]
          exact List.prefix_append _ _
        · exact List.prefix_rfl

theorem follow_of_closed {s : HttpServer} (closed : s.reactions = []) (n left : Nat) (url : Url)
    (q : HttpRequest) : (follow n s left url q) = (none, s) := by
  have hexchange : ∀ q, s.exchange left q = (none, s) := by
    intro q
    unfold exchange
    rw [closed]
  cases n with
  | zero =>
    unfold follow
    rw [hexchange]
    rfl
  | succ n =>
    unfold follow
    rw [hexchange]

/-- The first request that arrives is the one for the URL, unless this leads out of the web or the
server closes its connections at once. -/
theorem send_first (s : HttpServer) (timeout : Nat) (url : Url) (q : HttpRequest) :
    (s.send timeout url q).2.requests[s.requests.length]? =
      if !url.isWeb || s.reactions.isEmpty then none
      else some { q with target := url.requestTarget } := by
  have hbehind : s.requests[s.requests.length]? = none := List.getElem?_eq_none (Nat.le_refl _)
  unfold send
  cases url.isWeb with
  | false => exact hbehind
  | true =>
    rw [if_pos rfl]
    by_cases hnone : s.reactions = []
    · rw [follow_of_closed hnone, hnone]
      exact hbehind
    · obtain ⟨more, hmore⟩ := requests_prefix maxRedirects s timeout url q
      have hsome : s.reactions.isEmpty = false := by
        rw [List.isEmpty_eq_false_iff]
        exact hnone
      rw [← hmore, exchange_requests, hsome]
      simp

end HttpServer

/-- What comes after the first question mark of the target. -/
def HttpRequest.query (q : HttpRequest) : List Char :=
  (q.target.toList.dropWhile (· != '?')).drop 1

/-- A server finds the query of a URL in a request for it. -/
theorem HttpRequest.query_of_target {q : HttpRequest} {u : Url}
    (target : q.target = u.requestTarget) (unmarked : Url.Unmarked u.pathChars) :
    q.query = u.query.getD [] := by
  have hpath : ∀ c ∈ u.pathChars, (c != '?') = true := by
    intro c hc
    rw [bne_iff_ne]
    rintro rfl
    exact absurd (unmarked '?' hc) (by decide)
  unfold HttpRequest.query
  rw [target, Url.requestTarget, String.toList_ofList, List.dropWhile_append_of_pos hpath]
  unfold Url.queryChars
  cases u.query with
  | none => rfl
  | some cs => rfl

/-- The names that a book asks for are those of a set. -/
theorem SlotMap.listNames_eq_sort (m : SlotMap) : m.listNames =
    (m.values.filterMap Preferences.complianceList).toFinset.sort := by
  have hascending : m.listNames.Pairwise (· ≤ ·) :=
    (Table.ascending_keys _).imp fun h => le_of_lt (compare_lt_iff_lt.mp h)
  have hset : m.listNames.toFinset = (m.values.filterMap Preferences.complianceList).toFinset := by
    ext name
    unfold listNames
    rw [List.mem_toFinset, List.mem_toFinset, Table.mem_keys_ofList]
    simp
  rw [← hset]
  exact ((List.toFinset_sort (· ≤ ·) (nodup_listNames m)).mpr hascending).symm

namespace Client

/-! ### Requests for lists -/

/-- Pairs make up the query of a URL that has none. -/
theorem withPairs_of_query {u : Url} (query : u.query = none) (ps : List (String × String)) :
    (withPairs u ps).pathChars = u.pathChars ∧
      (withPairs u ps).query.getD [] = FormEncoding.encode ps := by
  unfold withPairs
  rw [query]
  cases FormEncoding.encode ps with
  | nil => exact ⟨rfl, by rw [query]; rfl⟩
  | cons c cs => exact ⟨rfl, rfl⟩

theorem withPairs_scheme (u : Url) (ps : List (String × String)) :
    (withPairs u ps).scheme = u.scheme := by
  unfold withPairs
  split <;> rfl

/-- What a server is asked is for the URL, if it is one of the web. -/
theorem request_first (timeout : Nat) (s : HttpServer) (urlText : String)
    (ps : List (String × String)) (q : HttpRequest) :
    (request timeout s urlText ps q).2.requests[s.requests.length]? =
      (Url.parse urlText).toOption.bind fun u =>
        if !u.isWeb || s.reactions.isEmpty then none
        else some { q with target := (withPairs u ps).requestTarget } := by
  unfold request
  cases Url.parse urlText with
  | error e => exact List.getElem?_eq_none (Nat.le_refl _)
  | ok u =>
    have hweb : u.isWeb = (withPairs u ps).isWeb := by
      unfold Url.isWeb
      rw [withPairs_scheme]
    show _ = if !u.isWeb || s.reactions.isEmpty then none else _
    rw [hweb, ← s.send_first timeout (withPairs u ps) q]
    dsimp only
    rcases s.send timeout (withPairs u ps) q with ⟨_ | r, s'⟩
    · rfl
    · dsimp only
      split
      · rfl
      · rfl

/-- The request for the lists with these names, if one arrives.  The names of a set are taken in
their order. -/
def listRequest? (settings : RelaySettings) (names : Finset String) (s : HttpServer) :
    Option HttpRequest :=
  (lists settings names.sort s).2.requests[s.requests.length]?

/-- The pairs in the request for the lists with these names. -/
def listPairs (names : Finset String) : List (String × String) := names.sort.map ("list", ·)

end Client

/-- The endpoint was read from a text, and has neither a query nor a fragment. -/
structure RelaySettings.IsPlain (settings : RelaySettings) : Prop where
  read : ∃ text, Url.parse text = .ok settings.endpoint
  query : settings.endpoint.query = none
  fragment : settings.endpoint.fragment = none

namespace Client

section Asking

variable {settings : RelaySettings} {names : Finset String} {s : HttpServer} {q : HttpRequest}

theorem lists_first (settings : RelaySettings) (names : List String) (s : HttpServer) :
    (lists settings names s).2.requests[s.requests.length]? =
      (Url.parse (settings.locate listsPath)).toOption.bind fun u =>
        if !u.isWeb || s.reactions.isEmpty then none
        else some { target := (withPairs u (names.map ("list", ·))).requestTarget, userAgent } := by
  unfold lists
  dsimp only
  rw [request_first]

/-- The URL for lists has no query of its own. -/
theorem unmarked_locate (plain : settings.IsPlain) :
    Url.Unmarked (settings.locate listsPath).toList := by
  have hpath : Url.Unmarked listsPath.toList := by decide +kernel
  obtain ⟨text, read⟩ := plain.read
  have hendpoint := Url.unmarked_toChars read plain.query plain.fragment
  unfold RelaySettings.locate
  rw [String.toList_ofList]
  exact Url.Unmarked.append (fun c hc => hendpoint c (mem_of_mem_trimSlashes hc)) hpath

/-- The names in a request for lists are the ones that were asked for. -/
theorem decode?_of_lists {names : List String} (plain : settings.IsPlain)
    (asked : (lists settings names s).2.requests[s.requests.length]? = some q) :
    FormEncoding.decode? q.query = some (names.map ("list", ·)) := by
  rw [lists_first] at asked
  obtain ⟨u, hu, hsome⟩ := Option.bind_eq_some_iff.mp asked
  have hread := toOption_eq_some_iff.mp hu
  have hquery := Url.query_of_unmarked hread (unmarked_locate plain)
  obtain ⟨hpath, hpairs⟩ := withPairs_of_query hquery (names.map ("list", ·))
  have hunmarked : Url.Unmarked (withPairs u (names.map ("list", ·))).pathChars := by
    rw [hpath]
    exact (Url.unmarked_of_parse hread).2.2
  split at hsome
  · cases hsome
  · cases hsome
    rw [HttpRequest.query_of_target rfl hunmarked, hpairs, FormEncoding.decode?_encode]

theorem decode?_listRequest? (plain : settings.IsPlain)
    (asked : listRequest? settings names s = some q) :
    FormEncoding.decode? q.query = some (listPairs names) := by
  unfold listRequest? at asked
  exact decode?_of_lists plain asked

/-- An endpoint of the web is asked for lists, unless it closes its connections at once. -/
theorem exists_listRequest? (plain : settings.IsPlain)
    (web : settings.endpoint.scheme = "http".toList ∨ settings.endpoint.scheme = "https".toList)
    (answers : s.reactions ≠ []) (names : Finset String) :
    ∃ q, listRequest? settings names s = some q := by
  obtain ⟨text, read⟩ := plain.read
  have hendpoint := Url.canonical_of_parse read (Url.schemeKind_of_http web)
  have hrelay : listsPath ∈ relayPaths := by decide
  obtain ⟨v, hcanonical, htext, hbelow⟩ :=
    exists_located_path hendpoint plain.query plain.fragment hrelay
  have hweb : v.isWeb = true := by
    unfold Url.isWeb
    rw [hbelow.scheme]
    simpa using web
  unfold listRequest?
  rw [lists_first, RelaySettings.parse_locate hcanonical htext]
  exact ⟨_, if_neg (by simp [hweb, answers])⟩

theorem listPairs_injective {names' : Finset String} (h : listPairs names' = listPairs names) :
    names' = names := by
  have hsort : names'.sort = names.sort :=
    List.map_injective_iff.mpr (fun _ _ heq => (Prod.mk.inj heq).2) h
  rw [← Finset.sort_toFinset names' (· ≤ ·), hsort, Finset.sort_toFinset]

end Asking

/-- **Names of lists survive the query.**  Whatever they are made up of, a server reads from the
query of a request for lists the pairs of `list` and each of the names in the order of their bytes,
and nothing else; and a request for lists is never one for other lists, whoever makes it of whom.
The names that a slot map has its book ask for are such ones, and so they arrive as well. -/
theorem list_names_survive {settings : RelaySettings} (plain : settings.IsPlain)
    (names : Finset String) (s : HttpServer) :
    (∀ q, listRequest? settings names s = some q →
      FormEncoding.decode? q.query = some (names.sort.map ("list", ·))) ∧
    (names.sort.map Bytes.ofString).Pairwise (· < ·) ∧
    (settings.endpoint.scheme = "http".toList ∨ settings.endpoint.scheme = "https".toList →
      s.reactions ≠ [] → ∃ q, listRequest? settings names s = some q) ∧
    (∀ q settings' names' s', RelaySettings.IsPlain settings' → names' ≠ names →
      listRequest? settings names s = some q → listRequest? settings' names' s' ≠ some q) ∧
    ∀ m : SlotMap,
      m.listNames = (m.values.filterMap Preferences.complianceList).toFinset.sort ∧
      ∀ q, (lists settings m.listNames s).2.requests[s.requests.length]? = some q →
        FormEncoding.decode? q.query = some (m.listNames.map ("list", ·)) := by
  refine ⟨fun q asked => decode?_listRequest? plain asked, ?_, ?_, ?_, ?_⟩
  · rw [List.pairwise_map]
    exact (Finset.sortedLT_sort names).pairwise.imp Bytes.ofString_lt_iff.mpr
  · exact fun web answers => exists_listRequest? plain web answers names
  · intro q settings' names' s' plain' other asked asked'
    have hpairs :=
      (decode?_listRequest? plain' asked').symm.trans (decode?_listRequest? plain asked)
    exact other (listPairs_injective (Option.some.inj hpairs))
  · exact fun m => ⟨m.listNames_eq_sort, fun q asked => decode?_of_lists plain asked⟩

/-- Names with delimiters, escapes, blanks, controls and characters of several bytes in them. -/
def oddNames : List String :=
  ["", "\x01\t", " a b ", "%26", "a&list=b", "a+b=c", "a=", "ß", "名", "🦀"]

theorem list_names_survive_odd : ∃ settings : RelaySettings, settings.IsPlain ∧
    ∃ q, listRequest? settings oddNames.toFinset { reactions := [.silence] } = some q ∧
      FormEncoding.decode? q.query = some (oddNames.map ("list", ·)) := by
  have hread : (Url.parse "HTTP://relay.example.com/a//").toOption.map (fun u =>
      (u.scheme, u.query, u.fragment)) = some ("http".toList, none, none) := by decide +kernel
  have hsort : oddNames.toFinset.sort = oddNames :=
    (List.toFinset_sort (· ≤ ·) (by decide +kernel)).mpr (by decide +kernel)
  obtain ⟨u, hu, hparts⟩ := Option.map_eq_some_iff.mp hread
  obtain ⟨hscheme, hrest⟩ := Prod.mk.inj hparts
  obtain ⟨hquery, hfragment⟩ := Prod.mk.inj hrest
  have hplain : RelaySettings.IsPlain { endpoint := u } :=
    ⟨⟨_, toOption_eq_some_iff.mp hu⟩, hquery, hfragment⟩
  obtain ⟨hdecode, -, hasked, -⟩ :=
    list_names_survive hplain oddNames.toFinset { reactions := [.silence] }
  obtain ⟨q, hq⟩ := hasked (Or.inl hscheme) (List.cons_ne_nil _ _)
  refine ⟨_, hplain, q, hq, ?_⟩
  rw [hdecode q hq, hsort]

end Client

end ProposerBook
