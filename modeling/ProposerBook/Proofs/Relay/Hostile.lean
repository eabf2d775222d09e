/-
What a relay can do to a book that asks it over HTTP.

Each attempt of a sync is a visit to a server, about which nothing is assumed: it may not be there,
stay silent, answer too late, send the client elsewhere, cut its answers short, or send whatever
bytes it likes.
What comes of a visit is settled in this order: whether a response comes in time, whether it is a
success, whether its body is whole, and whether the body can be read.  `Tells` is the one good end
and `Fails` has the others, each with its error, and all these errors lie with the relay.

So a sync has two ends.  Some visit is good, and then the first good one counts and what it tells is
taken over, as a whole; or none is, and then the fault of the last one is reported, and the book is
as it was before.
-/
import ProposerBook.Proofs.Relay.Attempts
import ProposerBook.Proofs.Relay.Lists
import ProposerBook.Relay.Client

namespace ProposerBook

namespace Client

/-! ### One visit -/

/-- What is fetched: from where, and how the answer is read. -/
structure Fetch (ε α : Type) where
  url : String
  /-- For how many milliseconds the answer is awaited. -/
  timeout : Nat
  pairs : List (String × String)
  parse : Bytes → Except (Json.Refusal ε) α
  message : ε → String

def registrationsFetch (settings : RelaySettings) : Fetch Decimal.ParseError (List Registration) :=
  ⟨settings.locate validatorsPath, settings.timeout.toNat, [], Registration.parse,
    Decimal.ParseError.message⟩

def listsFetch (settings : RelaySettings) (names : List String) :
    Fetch JsonForm.BadAddress NamedLists :=
  ⟨settings.locate listsPath, settings.timeout.toNat, names.map ("list", ·),
    Json.read JsonForm.lists, JsonForm.BadAddress.message⟩

namespace Fetch

variable {ε α : Type} {f : Fetch ε α} {s : HttpServer}

/-- What comes back from a server: a response, or nothing. -/
def received (f : Fetch ε α) (s : HttpServer) : Option HttpResponse :=
  match Url.parse f.url with
  | .error _ => none
  | .ok url => (s.send f.timeout (withPairs url f.pairs) { target := "", userAgent }).1

/-- What the client makes of it. -/
def answer (f : Fetch ε α) (s : HttpServer) : Except RelayError α :=
  let (x, _) := request f.timeout s f.url f.pairs { target := "", userAgent }
  x.bind (decode f.url f.parse f.message)

/-- What comes back is a success, and its body is whole and tells `x`. -/
def Tells (f : Fetch ε α) (s : HttpServer) (x : α) : Prop :=
  ∃ r b, f.received s = some r ∧ r.isSuccess = true ∧ r.body = some b ∧ f.parse b = .ok x

/-- What is wrong with what comes back, and how it is reported. -/
inductive Fails (f : Fetch ε α) (s : HttpServer) : RelayError → Prop
  | silent (reason : String) (nothing : f.received s = none) :
    Fails f s (.unreachable f.url reason)
  /-- The body is of no account. -/
  | refused {r : HttpResponse} (comes : f.received s = some r) (failure : r.isSuccess = false) :
    Fails f s (.status f.url r.status)
  | cut {r : HttpResponse} (comes : f.received s = some r) (success : r.isSuccess = true)
      (cut : r.body = none) : Fails f s (.unreachable f.url "")
  | unreadable {r : HttpResponse} {b : Bytes} {e : Json.Refusal ε} (comes : f.received s = some r)
      (success : r.isSuccess = true) (whole : r.body = some b) (refuses : f.parse b = .error e) :
    Fails f s (.undecodable f.url (e.map f.message))

/-- All these errors lie with the relay. -/
theorem Fails.liesWithRelay {e : RelayError} (h : f.Fails s e) : e.liesWithRelay = true := by
  cases h with
  | silent => rfl
  | refused => rfl
  | cut => rfl
  | unreadable => rfl

theorem validators_eq (settings : RelaySettings) (s : HttpServer) :
    (validators settings s).1 = (registrationsFetch settings).answer s := by
  unfold validators answer registrationsFetch
  dsimp only

theorem lists_eq (settings : RelaySettings) (names : List String) (s : HttpServer) :
    (lists settings names s).1 = (listsFetch settings names).answer s := by
  unfold lists answer listsFetch
  dsimp only

/-- The client answers with what comes back. -/
theorem answer_eq (f : Fetch ε α) (s : HttpServer) : ∃ reason, f.answer s =
    match f.received s with
    | none => .error (.unreachable f.url reason)
    | some r => if r.isSuccess then decode f.url f.parse f.message r
        else .error (.status f.url r.status) := by
  unfold answer received request
  cases Url.parse f.url with
  | error e => exact ⟨_, rfl⟩
  | ok url =>
    refine ⟨"", ?_⟩
    simp only
    cases (s.send f.timeout (withPairs url f.pairs) { target := "", userAgent }).1 with
    | none => rfl
    | some r =>
      simp only
      split <;> rfl

theorem answer_of_tells {x : α} (h : f.Tells s x) : f.answer s = .ok x := by
  obtain ⟨r, b, hcomes, hsuccess, hwhole, hreads⟩ := h
  obtain ⟨reason, hanswer⟩ := f.answer_eq s
  rw [hanswer, hcomes]
  simp only [hsuccess, if_true, decode, hwhole, hreads]
  rfl

/-- **A visit is good or fails, and the client knows which.** -/
theorem answer_cases (f : Fetch ε α) (s : HttpServer) :
    match f.answer s with
    | .ok x => f.Tells s x
    | .error e => f.Fails s e := by
  obtain ⟨reason, hanswer⟩ := f.answer_eq s
  rw [hanswer]
  cases hreceived : f.received s with
  | none => exact .silent reason hreceived
  | some r =>
    by_cases hsuccess : r.isSuccess = true
    · simp only [if_pos hsuccess, decode]
      cases hbody : r.body with
      | none => exact .cut hreceived hsuccess hbody
      | some b =>
        dsimp only
        cases hparse : f.parse b with
        | ok x => exact ⟨r, b, hreceived, hsuccess, hbody, hparse⟩
        | error e => exact .unreadable hreceived hsuccess hbody hparse
    · simp only [if_neg hsuccess]
      exact .refused hreceived (Bool.eq_false_iff.mpr hsuccess)

theorem answer_eq_ok_iff {x : α} : f.answer s = .ok x ↔ f.Tells s x := by
  refine ⟨fun h => ?_, answer_of_tells⟩
  have hcases := f.answer_cases s
  rw [h] at hcases
  exact hcases

theorem fails_of_answer {e : RelayError} (h : f.answer s = .error e) : f.Fails s e := by
  have hcases := f.answer_cases s
  rw [h] at hcases
  exact hcases

theorem not_tells_of_answer {e : RelayError} (h : f.answer s = .error e) (x : α) :
    ¬f.Tells s x := by
  intro htells
  rw [answer_of_tells htells] at h
  cases h

end Fetch

/-! ### Visits in a row -/

/-- A visit to a server, and how long it takes. -/
structure Visit where
  delay : Nat
  server : HttpServer

namespace Fetch

variable {ε α : Type} {f : Fetch ε α} {visits : List Visit}

/-- What a visit is to the book. -/
def planned (f : Fetch ε α) (v : Visit) : Planned α := ⟨v.delay, .answer (f.answer v.server)⟩

theorem resolve_planned (f : Fetch ε α) (v : Visit) (standing : α) :
    (f.planned v).reply.resolve standing = f.answer v.server := rfl

/-- What comes of some visits. -/
inductive Yields (f : Fetch ε α) (visits : List Visit) : Except RelayError α → Prop
  /-- The first good visit counts. -/
  | first {before after : List Visit} {v : Visit} {x : α} (split : visits = before ++ v :: after)
      (vain : ∀ u ∈ before, ∀ y, ¬f.Tells u.server y) (tells : f.Tells v.server x) :
    Yields f visits (.ok x)
  /-- No visit is good, and the fault of the last one is reported. -/
  | none {v : Visit} {e : RelayError} (vain : ∀ u ∈ visits, ∀ y, ¬f.Tells u.server y)
      (last : visits.getLast? = some v) (fails : f.Fails v.server e) : Yields f visits (.error e)

theorem yields_of_decides {standing : α} {before after : List (Planned α)} {q : Planned α}
    (split : visits.map f.planned = before ++ q :: after)
    (decides : Relay.Decides standing before q after) :
    f.Yields visits (q.reply.resolve standing) := by
  obtain ⟨us, ws, rfl, rfl, hrest⟩ := List.map_eq_append_iff.mp split
  obtain ⟨v, vs, rfl, rfl, rfl⟩ := List.map_eq_cons_iff.mp hrest
  have hvain : ∀ u ∈ us, ∀ y, ¬f.Tells u.server y := by
    intro u hu
    obtain ⟨e, he⟩ := decides.vain _ (List.mem_map_of_mem hu)
    rw [resolve_planned] at he
    exact not_tells_of_answer he
  rw [resolve_planned]
  cases hanswer : f.answer v.server with
  | ok x => exact .first rfl hvain (answer_eq_ok_iff.mp hanswer)
  | error e =>
    have hlast : vs = [] := by
      rcases decides.last with ⟨x, hx⟩ | hnone
      · rw [resolve_planned, hanswer] at hx
        cases hx
      · exact List.map_eq_nil_iff.mp hnone
    rw [hlast]
    refine .none ?_ List.getLast?_concat (fails_of_answer hanswer)
    intro u hu
    rcases List.mem_append.mp hu with hu | hu
    · exact hvain u hu
    · rw [List.mem_singleton.mp hu]
      exact not_tells_of_answer hanswer

theorem Yields.liesWithRelay {e : RelayError} (h : f.Yields visits (.error e)) :
    e.liesWithRelay = true := by
  cases h with
  | none _ _ fails => exact fails.liesWithRelay

/-- There is something to take over just if some visit is good. -/
theorem Yields.ok_iff {β : Type} {x : Except RelayError α} (h : f.Yields visits x) (g : α → β) :
    (∃ n, x.map g = .ok n) ↔ ∃ v ∈ visits, ∃ y, f.Tells v.server y := by
  cases h with
  | first split vain tells =>
    refine ⟨fun _ => ⟨_, ?_, _, tells⟩, fun _ => ⟨_, rfl⟩⟩
    rw [split]
    exact List.mem_append_right _ List.mem_cons_self
  | none vain =>
    refine ⟨nofun, ?_⟩
    rintro ⟨v, hv, y, hy⟩
    exact absurd hy (vain v hv y)

/-- **What a sync makes of a book is what the visits yield.** -/
theorem perform_yields {k : Relay.Inquiry α} (law : k.Lawful) {r : Relay} {slot : UInt64}
    {retries : Nat} {later : List (Planned α)} (sound : r.Sound) (alone : r.tasks = [])
    (begins : k.Begins (r.begin true k.purpose slot retries)
      { id := r.nextId, purpose := k.purpose, slot, retries })
    (budget : visits.length = retries + 1)
    (plan : k.plan r.remote = visits.map f.planned ++ later) :
    ∃ x s, f.Yields visits x ∧ r.perform k.purpose slot retries = (some (x.map k.size), s) ∧
      ((∃ n, x.map k.size = .ok n) ↔ ∃ v ∈ visits, ∃ y, f.Tells v.server y) ∧
      s.cache = k.cacheAfter slot r.cache x ∧ s.registry = k.registryAfter s.arrivals r.registry x ∧
      s.overrides = r.overrides ∧ s.syncing = false := by
  have hlength : (visits.map f.planned).length = retries + 1 := by
    rw [List.length_map, budget]
  have hsome : visits.map f.planned ≠ [] := List.ne_nil_of_length_eq_add_one hlength
  obtain ⟨before, q, after, hsplit, hdecides⟩ :=
    Relay.exists_decides (k.standing r.remote) hsome
  have hahead := law.ahead_eq plan
  rw [hlength, hsplit] at hahead
  have hyields := yields_of_decides hsplit hdecides
  obtain ⟨log, hperform⟩ := law.perform sound alone begins hahead hdecides
  exact ⟨_, _, hyields, hperform, hyields.ok_iff k.size, rfl, rfl, rfl, rfl⟩

end Fetch

end Client

namespace Relay

open Client (Visit registrationsFetch listsFetch)

theorem Sound.down_of_alone {r : Relay} (h : Sound r) (alone : r.tasks = []) :
    r.syncing = false := by
  rw [h.idle_iff, alone]
  intro t ht
  cases ht

/-! ### The main result -/

/--
**Whatever a relay does, it cannot damage the book.**  If nothing else goes on meanwhile, a sync of
the slot map succeeds just if one of its visits is a success with a whole body that can be read,
and then the slot map is made from the first such body.  Or else the fault of the last visit is
reported, which lies with the relay, and slot map and last slot are what they were; in either case
the overrides and the registry are, and the flag is down.  A sync of the lists is no different: the
lists of the first good visit are merged in, or the registry is what it was.  If no list is named
it asks for nothing.
-/
theorem hostile_relay_harmless {r : Relay} (h : Reachable r) (alone : r.tasks = [])
    (slot : UInt64) (retries : Nat) :
    (∀ (visits : List Visit) later, visits.length = retries + 1 →
      r.remote.validatorPlan = visits.map (fun v =>
        ⟨v.delay, .answer (Client.validators r.settings v.server).1⟩) ++ later →
      ∃ x o s, (registrationsFetch r.settings).Yields visits x ∧
        r.perform .validators slot retries = (some o, s) ∧
        ((∃ n, o = .ok n) ↔
          ∃ v ∈ visits, ∃ rs, (registrationsFetch r.settings).Tells v.server rs) ∧
        (match x with
          | .ok rs => o = .ok (SlotMap.ofRegistrations rs).size ∧
            s.cache = ⟨SlotMap.ofRegistrations rs, some slot⟩
          | .error e => o = .error e ∧ e.liesWithRelay = true ∧ s.cache = r.cache) ∧
        s.overrides = r.overrides ∧ s.registry = r.registry ∧ s.syncing = false) ∧
    (∀ (visits : List Visit) later, visits.length = retries + 1 →
      SlotMap.listNames r.cache.slots ≠ [] →
      r.remote.listPlan = visits.map (fun v => ⟨v.delay,
        .answer (Client.lists r.settings (SlotMap.listNames r.cache.slots) v.server).1⟩) ++ later →
      ∃ x o s, (listsFetch r.settings (SlotMap.listNames r.cache.slots)).Yields visits x ∧
        r.perform .lists slot retries = (some o, s) ∧
        ((∃ n, o = .ok n) ↔ ∃ v ∈ visits, ∃ lists,
          (listsFetch r.settings (SlotMap.listNames r.cache.slots)).Tells v.server lists) ∧
        (match x with
          | .ok lists => o = .ok lists.size ∧
            s.registry = r.registry.update s.arrivals lists
          | .error e => o = .error e ∧ e.liesWithRelay = true ∧ s.registry = r.registry) ∧
        s.cache = r.cache ∧ s.overrides = r.overrides ∧ s.syncing = false) ∧
    (SlotMap.listNames r.cache.slots = [] → ∃ s,
      r.perform .lists slot retries = (some (.ok 0), s) ∧ s.remote = r.remote ∧
        s.registry = r.registry ∧ s.cache = r.cache ∧ s.overrides = r.overrides ∧
        s.syncing = false) := by
  have hdown := h.sound.down_of_alone alone
  refine ⟨?_, ?_, ?_⟩
  · intro visits later hbudget hplan
    have hplanned : Inquiry.validators.plan r.remote
        = visits.map (registrationsFetch r.settings).planned ++ later := by
      simp only [Client.Fetch.validators_eq] at hplan
      exact hplan
    have hbegins : Inquiry.validators.Begins (r.begin true .validators slot retries)
        { id := r.nextId, purpose := .validators, slot, retries } :=
      begins_validators hdown rfl rfl
    obtain ⟨x, s, hyields, hperform, hiff, hcache, hregistry, hoverrides, hclear⟩ :=
      Client.Fetch.perform_yields lawful_validators h.sound alone hbegins hbudget hplanned
    refine ⟨x, _, s, hyields, hperform, hiff, ?_, hoverrides, hregistry.trans ?_, hclear⟩
    · cases x with
      | ok rs => exact ⟨rfl, hcache⟩
      | error e => exact ⟨rfl, hyields.liesWithRelay, hcache⟩
    · cases x <;> rfl
  · intro visits later hbudget hnamed hplan
    have hplanned : (Inquiry.lists (SlotMap.listNames r.cache.slots)).plan r.remote
        = visits.map (listsFetch r.settings (SlotMap.listNames r.cache.slots)).planned
          ++ later := by
      simp only [Client.Fetch.lists_eq] at hplan
      exact hplan
    have hbegins : (Inquiry.lists (SlotMap.listNames r.cache.slots)).Begins
        (r.begin true .lists slot retries)
        { id := r.nextId, purpose := .lists, slot, retries } :=
      begins_lists (r := r.begin true .lists slot retries) hdown rfl rfl hnamed
    obtain ⟨x, s, hyields, hperform, hiff, hcache, hregistry, hoverrides, hclear⟩ :=
      Client.Fetch.perform_yields (lawful_lists _) h.sound alone hbegins hbudget hplanned
    refine ⟨x, _, s, hyields, hperform, hiff, ?_, hcache.trans ?_, hoverrides, hclear⟩
    · cases x with
      | ok lists => exact ⟨rfl, hregistry⟩
      | error e => exact ⟨rfl, hyields.liesWithRelay, hregistry⟩
    · cases x <;> rfl
  · intro hunnamed
    obtain ⟨log, hperform⟩ := perform_lists_of_unnamed h.sound alone hunnamed slot retries
    exact ⟨_, hperform, rfl, rfl, rfl, rfl, hdown⟩

/-- Where the besieged book looks for its relay. -/
def besiegedSettings : RelaySettings :=
  { endpoint :=
      { scheme := "http".toList
        authority := some { host := some (.domain "relay".toList) }
        path := .segments [[]] } }

/-- A server that sends these bytes, once. -/
def sending (text : String) : HttpServer := { reactions := [.response (Bytes.ofString text)] }

/-- First an answer comes too late, and then an empty one that is as it should be. -/
def slow : List Visit :=
  [⟨1000, { reactions := [.response (Bytes.ofString "HTTP/1.1 200 OK\r\n\r\n[]") 1000] }⟩,
    ⟨5, sending "HTTP/1.1 200 OK\r\n\r\n[]"⟩]

/-- First there is a status that is no success, and then a body that is cut short. -/
def broken : List Visit :=
  [⟨5, sending "HTTP/1.1 500 Oops\r\n\r\n[]"⟩,
    ⟨5, sending "HTTP/1.1 200 OK\r\ncontent-length: 9\r\n\r\n[]"⟩]

/-- The book of `base` with its first sync over, as its relay turns hostile. -/
def besieged (base : Relay) : Relay :=
  (opened { base with settings := besiegedSettings }).run [.move 0, .move 0, .answers
    { validatorPlan := slow.map fun v =>
        ⟨v.delay, .answer (Client.validators besiegedSettings v.server).1⟩
      listPlan := broken.map fun v =>
        ⟨v.delay, .answer (Client.lists besiegedSettings ["custom"] v.server).1⟩ }]

theorem hostile_relay_harmless_besieged :
    (∃ rs s, (besieged (serving [])).perform .validators 40 1
        = (some (.ok (SlotMap.ofRegistrations rs).size), s) ∧
      s.cache = ⟨SlotMap.ofRegistrations rs, some 40⟩) ∧
    (∃ e s, (besieged (serving [])).perform .lists 40 1 = (some (.error e), s) ∧
      e.liesWithRelay = true ∧ s.registry = (besieged (serving [])).registry) ∧
    ∃ s, (besieged failing).perform .lists 40 1 = (some (.ok 0), s) ∧
      s.registry = (besieged failing).registry := by
  have hnames : SlotMap.listNames (besieged (serving [])).cache.slots = ["custom"] := by
    decide +kernel
  obtain ⟨hvalidators, hlists, -⟩ := hostile_relay_harmless (r := besieged (serving []))
    ⟨_, _, rfl⟩ rfl 40 1
  refine ⟨?_, ?_, ?_⟩
  · obtain ⟨x, o, s, -, hperform, hiff, hends, -⟩ :=
      hvalidators slow [] rfl (List.append_nil _).symm
    have hgood : ((registrationsFetch besiegedSettings).answer
        (sending "HTTP/1.1 200 OK\r\n\r\n[]")).toOption.isSome = true := by decide +kernel
    cases hanswer : (registrationsFetch besiegedSettings).answer
        (sending "HTTP/1.1 200 OK\r\n\r\n[]") with
    | error e =>
      rw [hanswer] at hgood
      cases hgood
    | ok rs =>
      obtain ⟨n, rfl⟩ := hiff.mpr ⟨_, List.mem_cons_of_mem _ List.mem_cons_self, rs,
        Client.Fetch.answer_eq_ok_iff.mp hanswer⟩
      cases x with
      | error e => cases hends.1
      | ok rs => exact ⟨rs, s, hends.1 ▸ hperform, hends.2⟩
  · have hbad : ∀ v ∈ broken, ((listsFetch besiegedSettings ["custom"]).answer
        v.server).toOption.isSome = false := by decide +kernel
    rw [hnames] at hlists
    obtain ⟨x, o, s, -, hperform, hiff, hends, -⟩ :=
      hlists broken [] rfl nofun (List.append_nil _).symm
    cases x with
    | error e => exact ⟨e, s, hends.1 ▸ hperform, hends.2⟩
    | ok lists =>
      obtain ⟨v, hv, lists, htells⟩ := hiff.mp ⟨_, hends.1⟩
      have hanswer : (listsFetch besiegedSettings ["custom"]).answer v.server = .ok lists :=
        Client.Fetch.answer_of_tells htells
      have hno := hbad v hv
      rw [hanswer] at hno
      cases hno
  · obtain ⟨-, -, hunnamed⟩ := hostile_relay_harmless (r := besieged failing) ⟨_, _, rfl⟩ rfl 40 1
    obtain ⟨s, hperform, -, hregistry, -⟩ := hunnamed (by decide +kernel)
    exact ⟨s, hperform, hregistry⟩

end Relay

end ProposerBook
