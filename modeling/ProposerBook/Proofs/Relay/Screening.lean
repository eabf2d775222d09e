/-
Screening over HTTP.

The texts of a request are read one by one before anything is screened.  So either all of them
spell addresses, and then one check is made for all of these and is put on record as any check is,
or there is a first text that spells none, and the request ends with it as if nothing had been
asked for.

A verdict is about the addresses and not about their texts, and it fails as soon as one of the
addresses is on a list.  So neither the spelling nor the order nor a repetition counts, and two
requests put into one pass just when both do.
-/
import ProposerBook.Proofs.Address
import ProposerBook.Proofs.Json.Decode
import ProposerBook.Proofs.Outcome
import ProposerBook.Proofs.Relay.Listing
import ProposerBook.Proofs.Relay.Unseen

namespace ProposerBook

namespace Inspection

open Json (Tree Value)

/-! ### Requests -/

/-- A request whose body is read as a screening. -/
structure Brings (q : Request) (s : Screening) : Prop where
  method : q.method = "POST"
  path : route? (path q.target) = some .check
  json : (q.contentType.bind MediaType.parse?).any MediaType.isJson = true
  short : q.body.length ≤ maxBody
  body : Screening.parse q.body = .ok s

theorem answer_of_brings {q : Request} {s : Screening} (brings : Brings q s) (r : Relay) :
    answer r q = screen r s := by
  have hpost : Route.allows .check "POST" = true := rfl
  have hcheck : answerCheck r q = screen r s := by
    unfold answerCheck
    rw [if_pos brings.json, if_neg (Nat.not_lt.mpr brings.short), brings.body]
  unfold answer
  rw [brings.path, brings.method]
  dsimp only
  rw [if_pos hpost, if_neg (by decide)]
  exact hcheck

/-- A screening as an object. -/
def Screening.toValue (s : Screening) : Value :=
  .object [("list", .string s.list), ("addresses", .array (s.addresses.map .string))]

theorem sound_toValue (s : Screening) : s.toValue.Sound := by
  refine ⟨trivial, ?_, trivial⟩
  show Json.ItemsSound (s.addresses.map .string)
  induction s.addresses with
  | nil => trivial
  | cons x xs ih => exact ⟨trivial, ih⟩

/-- **Every screening has a text that is read as it.** -/
theorem parse_write (s : Screening) : Screening.parse s.toValue.write = .ok s := by
  have hitems : List.Forall₂ (fun t x => (Json.string t : Except (Json.Refusal Empty) _) = .ok x)
      (Json.treesOf (s.addresses.map .string)) s.addresses := by
    induction s.addresses with
    | nil => exact .nil
    | cons x xs ih => exact .cons rfl ih
  have hlist : Json.list Json.string (.ofValue (.array (s.addresses.map .string))) =
      (.ok s.addresses : Except (Json.Refusal Empty) _) := Json.list_eq_ok_iff.mpr ⟨_, rfl, hitems⟩
  have honce : Json.once "addresses" none (Json.list Json.string)
      (.ofValue (.array (s.addresses.map .string))) =
        (.ok (some s.addresses) : Except (Json.Refusal Empty) _) :=
    map_eq_ok_iff.mpr ⟨_, hlist, rfl⟩
  have hdecode : Screening.decoder (.ofValue s.toValue) = .ok s := by
    refine bind_eq_ok_iff.mpr ⟨⟨some s.list, some s.addresses⟩, ?_, rfl⟩
    exact bind_eq_ok_iff.mpr ⟨_, rfl, bind_eq_ok_iff.mpr ⟨_, rfl, bind_eq_ok_iff.mpr ⟨_, rfl,
      bind_eq_ok_iff.mpr ⟨_, bind_eq_ok_iff.mpr ⟨_, honce, rfl⟩, rfl⟩⟩⟩⟩
  unfold Screening.parse Json.read
  rw [Json.scan_write (sound_toValue s)]
  simp [hdecode]

/-- A request that brings a screening. -/
def asking (s : Screening) : Request :=
  { method := "POST", target := "/compliance/check?now"
    contentType := some "Application/JSON; charset=utf-8", body := s.toValue.write }

theorem brings_asking {s : Screening} (short : s.toValue.write.length ≤ maxBody) :
    Brings (asking s) s where
  method := rfl
  path := show route? (path "/compliance/check?now") = some .check by decide +kernel
  json := show (MediaType.parse? "Application/JSON; charset=utf-8").any MediaType.isJson = true by
    decide +kernel
  short := short
  body := parse_write s

/-! ### The texts of a request -/

theorem parseAddress_eq_ok_iff {s : String} {a : Address} :
    parseAddress s = .ok a ↔ Address.Spells s a :=
  Address.parse_trim_eq_ok_iff

/-- All texts are read if each of them spells an address. -/
theorem parseAddresses_eq_ok_iff {ss : List String} {as : List Address} :
    parseAddresses ss = .ok as ↔ List.Forall₂ Address.Spells ss as := by
  induction ss generalizing as with
  | nil =>
    rw [List.forall₂_nil_left_iff]
    simp [parseAddresses, eq_comm]
  | cons s ss ih =>
    rw [List.forall₂_cons_left_iff]
    unfold parseAddresses
    cases hs : parseAddress s with
    | error e =>
      refine iff_of_false nofun ?_
      rintro ⟨a, -, ha, -⟩
      rw [parseAddress_eq_ok_iff.mpr ha] at hs
      cases hs
    | ok a =>
      rw [parseAddress_eq_ok_iff] at hs
      rw [map_eq_ok_iff]
      constructor
      · rintro ⟨bs, hbs, rfl⟩
        exact ⟨a, bs, hs, ih.mp hbs, rfl⟩
      · rintro ⟨c, bs, hc, hbs, rfl⟩
        exact ⟨bs, ih.mpr hbs, by rw [hs.unique hc]⟩

/-- The first of the texts that spells no address. -/
def FirstBad (ss : List String) (bad : String) : Prop :=
  ∃ before after, ss = before ++ bad :: after ∧ (∀ s ∈ before, ∃ a, Address.Spells s a) ∧
    ∀ a, ¬Address.Spells bad a

/-- What is not read is refused for the first text that spells no address. -/
theorem firstBad_of_error {ss : List String} {bad : String} {e : Address.ParseError}
    (h : parseAddresses ss = .error (bad, e)) : FirstBad ss bad := by
  induction ss with
  | nil => cases h
  | cons s ss ih =>
    unfold parseAddresses at h
    cases hs : parseAddress s with
    | error e' =>
      rw [hs] at h
      cases h
      refine ⟨[], ss, rfl, nofun, ?_⟩
      intro a ha
      rw [parseAddress_eq_ok_iff.mpr ha] at hs
      cases hs
    | ok a =>
      rw [hs] at h
      cases hmore : parseAddresses ss with
      | ok as =>
        rw [hmore] at h
        cases h
      | error x =>
        rw [hmore] at h
        cases h
        obtain ⟨before, after, rfl, hbefore, hbad⟩ := ih hmore
        refine ⟨s :: before, after, rfl, ?_, hbad⟩
        exact List.forall_mem_cons.mpr ⟨⟨a, parseAddress_eq_ok_iff.mp hs⟩, hbefore⟩

/-- The first text that spells no address is what the texts are refused for. -/
theorem FirstBad.parseAddresses_eq {ss : List String} {bad : String} (h : FirstBad ss bad) :
    ∃ e, parseAddresses ss = .error (bad, e) := by
  obtain ⟨before, after, rfl, hbefore, hbad⟩ := h
  induction before with
  | nil =>
    cases hs : parseAddress bad with
    | ok a => exact absurd (parseAddress_eq_ok_iff.mp hs) (hbad a)
    | error e =>
      refine ⟨e, ?_⟩
      rw [List.nil_append, parseAddresses, hs]
  | cons s before ih =>
    obtain ⟨⟨a, ha⟩, hbefore⟩ := List.forall_mem_cons.mp hbefore
    obtain ⟨e, he⟩ := ih hbefore
    refine ⟨e, ?_⟩
    rw [List.cons_append, parseAddresses, parseAddress_eq_ok_iff.mpr ha, he]
    rfl

/-- There is one first text that spells no address. -/
theorem FirstBad.unique {ss : List String} {s t : String} (hs : FirstBad ss s)
    (ht : FirstBad ss t) : s = t := by
  obtain ⟨e, he⟩ := hs.parseAddresses_eq
  obtain ⟨e', he'⟩ := ht.parseAddresses_eq
  rw [he] at he'
  cases he'
  rfl

theorem FirstBad.not_spelled {ss : List String} {bad : String} (h : FirstBad ss bad)
    (as : List Address) : ¬List.Forall₂ Address.Spells ss as := by
  intro hspelled
  obtain ⟨e, he⟩ := h.parseAddresses_eq
  rw [parseAddresses_eq_ok_iff.mpr hspelled] at he
  cases he

/-! ### What comes of a request -/

/-- The tree that tells of a verdict. -/
def verdictTree (compliant : Bool) : Tree := .object [(.ok "compliant", .bool compliant)] none

/-- The tree that tells which text spells no address. -/
def refusalTree (bad : String) : Tree :=
  .object [(.ok "address", .string (.ok bad)), (.ok "error", .string (.ok "Invalid address"))] none

/-- What an answer puts on record of a check. -/
def Answer.trail (a : Answer) : List LogEvent :=
  a.events.filter fun e => e.source = .screening ∨ e.source = .audit

/-- What comes of a screening: a check of all of its addresses, or, if one of its texts spells
none, a refusal and no check. -/
inductive Screened (r : Registry) (s : Screening) (a : Answer) : Prop
  | checked {as : List Address} (spelled : List.Forall₂ Address.Spells s.addresses as)
      (response : a.response.Sends 200 (verdictTree (r.check s.list as).compliant))
      (findings : a.findings = (r.check s.list as).findings)
      (trail : a.trail = (r.check s.list as).findings.map findingEvent)
  | refused {bad : String} (first : FirstBad s.addresses bad)
      (response : a.response.Sends 400 (refusalTree bad))
      (findings : a.findings = []) (trail : a.trail = [])

theorem trail_findingEvent (fs : List Registry.Finding) :
    (fs.map findingEvent).filter (fun e => e.source = .screening ∨ e.source = .audit) =
      fs.map findingEvent := by
  refine List.filter_eq_self.mpr ?_
  intro e he
  obtain ⟨f, -, rfl⟩ := List.mem_map.mp he
  cases f with
  | unknownList => rfl
  | listed => rfl
  | blacklisted => rfl

/-- What a request adds to the log is put on record with its answer. -/
theorem inspect_of_answer {r s : Relay} {q : Request} {a : Answer} {events : List LogEvent}
    (h : answer r q = (a, s)) (log : s.log = r.log ++ events) :
    (r.inspect q).1 = { a with events } := by
  unfold Relay.inspect
  rw [h]
  dsimp only
  rw [log, List.drop_left]

theorem screened_of_brings {q : Request} {s : Screening} (brings : Brings q s) (r : Relay) :
    Screened r.registry s (r.inspect q).1 := by
  have hscreen := answer_of_brings brings r
  cases hs : parseAddresses s.addresses with
  | ok as =>
    have hanswer : ∃ asked : LogEvent, asked.source = .inspection ∧ (r.inspect q).1 =
        { response := { status := 200, body := some (.object
            [("compliant", .bool (r.registry.check s.list as).compliant)]) }
          findings := (r.registry.check s.list as).findings
          events := asked :: (r.registry.check s.list as).findings.map findingEvent } := by
      unfold screen at hscreen
      rw [hs] at hscreen
      exact ⟨_, rfl, inspect_of_answer hscreen (List.append_assoc _ _ _)⟩
    obtain ⟨asked, hsource, hanswer⟩ := hanswer
    rw [hanswer]
    refine .checked (parseAddresses_eq_ok_iff.mp hs) ⟨_, rfl, ?_⟩ rfl ?_
    · exact Json.scan_write ⟨trivial, trivial⟩
    · unfold Answer.trail
      rw [List.filter_cons_of_neg (by simp [hsource]), trail_findingEvent]
  | error x =>
    obtain ⟨bad, e⟩ := x
    have hanswer : ∃ asked refused : LogEvent, asked.source = .inspection ∧
        refused.source = .inspection ∧ (r.inspect q).1 =
          { response := { status := 400, body := some (errorValue "Invalid address"
              [("address", .string bad)]) }
            events := [asked, refused] } := by
      unfold screen at hscreen
      rw [hs] at hscreen
      exact ⟨_, _, rfl, rfl, inspect_of_answer hscreen (List.append_assoc _ _ _)⟩
    obtain ⟨asked, refused, hasked, hrefused, hanswer⟩ := hanswer
    rw [hanswer]
    refine .refused (firstBad_of_error hs) ⟨_, rfl, ?_⟩ rfl ?_
    · exact Json.scan_write ⟨trivial, trivial, trivial⟩
    · simp [Answer.trail, hasked, hrefused]

/-! ### Verdicts -/

theorem Response.Sends.unique {x : Response} {m n : Nat} {t u : Tree} (ht : x.Sends m t)
    (hu : x.Sends n u) : m = n ∧ t = u := by
  obtain ⟨v, rfl, hv⟩ := ht
  obtain ⟨w, heq, hw⟩ := hu
  cases heq
  rw [hv] at hw
  cases hw
  exact ⟨rfl, rfl⟩

/-- An answer that lets the addresses pass. -/
def Answer.Passes (a : Answer) : Prop := a.response.Sends 200 (verdictTree true)

/-- Addresses for texts put together are put together from addresses for each. -/
theorem spelled_append_iff {ss ts : List String} {cs : List Address} :
    List.Forall₂ Address.Spells (ss ++ ts) cs ↔ ∃ as bs, List.Forall₂ Address.Spells ss as ∧
      List.Forall₂ Address.Spells ts bs ∧ cs = as ++ bs := by
  constructor
  · intro h
    induction ss generalizing cs with
    | nil => exact ⟨[], cs, .nil, h, rfl⟩
    | cons s ss ih =>
      obtain ⟨c, ds, hc, hds, rfl⟩ := List.forall₂_cons_left_iff.mp h
      obtain ⟨as, bs, has, hbs, rfl⟩ := ih hds
      exact ⟨c :: as, bs, .cons hc has, hbs, rfl⟩
  · rintro ⟨as, bs, has, hbs, rfl⟩
    exact List.rel_append has hbs

theorem spelled_unique {ss : List String} {as bs : List Address}
    (has : List.Forall₂ Address.Spells ss as) (hbs : List.Forall₂ Address.Spells ss bs) :
    as = bs := by
  have hunique : Relator.RightUnique Address.Spells := fun _ _ _ => Address.Spells.unique
  exact List.right_unique_forall₂' hunique has hbs

/-- What is spelled right gets the verdict. -/
theorem Screened.sends {r : Registry} {s : Screening} {a : Answer} (h : Screened r s a)
    {as : List Address} (spelled : List.Forall₂ Address.Spells s.addresses as) :
    a.response.Sends 200 (verdictTree (r.check s.list as).compliant) := by
  cases h with
  | checked spelled' response =>
    rw [spelled_unique spelled spelled']
    exact response
  | refused first => exact absurd spelled (first.not_spelled as)

/-- What is not spelled right gets back the first text that spells no address. -/
theorem Screened.sends_refusal {r : Registry} {s : Screening} {a : Answer} (h : Screened r s a)
    {bad : String} (first : FirstBad s.addresses bad) :
    a.response.Sends 400 (refusalTree bad) := by
  cases h with
  | checked spelled => exact absurd spelled (first.not_spelled _)
  | refused first' response =>
    rw [first.unique first']
    exact response

/-- What passes is spelled right and is found on no list. -/
theorem Screened.passes_iff {r : Registry} {s : Screening} {a : Answer} (h : Screened r s a) :
    a.Passes ↔ ∃ as, List.Forall₂ Address.Spells s.addresses as ∧
      (r.check s.list as).compliant = true := by
  constructor
  · intro hpasses
    cases h with
    | @checked as spelled response =>
      obtain ⟨-, htree⟩ := response.unique hpasses
      simp only [verdictTree, Tree.object.injEq, List.cons.injEq, Prod.mk.injEq, Tree.bool.injEq]
        at htree
      exact ⟨as, spelled, htree.1.1.2⟩
    | refused first response =>
      obtain ⟨hstatus, -⟩ := response.unique hpasses
      exact absurd hstatus (by decide)
  · rintro ⟨as, spelled, hcompliant⟩
    have hsends := h.sends spelled
    rw [hcompliant] at hsends
    exact hsends

/-- Texts that stand for the same addresses, however these are spelled, ordered or repeated. -/
def SameAddresses (ss ts : List String) : Prop :=
  ∃ as bs, List.Forall₂ Address.Spells ss as ∧ List.Forall₂ Address.Spells ts bs ∧
    ∀ a, a ∈ as ↔ a ∈ bs

end Inspection

namespace Registry

/-- The same addresses have the same verdict. -/
theorem Arises.compliant_same {r : Registry} (h : r.Arises) (name : String) {as bs : List Address}
    (same : ∀ a, a ∈ as ↔ a ∈ bs) : (r.check name as).compliant = (r.check name bs).compliant := by
  obtain ⟨list, hlist⟩ := h.screened name
  rw [Bool.eq_iff_iff, compliant_iff hlist, compliant_iff hlist]
  simp only [same]

/-- Addresses put together pass if all of them do. -/
theorem Arises.compliant_append {r : Registry} (h : r.Arises) (name : String)
    (as bs : List Address) : (r.check name (as ++ bs)).compliant = true ↔
      (r.check name as).compliant = true ∧ (r.check name bs).compliant = true := by
  obtain ⟨list, hlist⟩ := h.screened name
  simp only [compliant_iff hlist, List.mem_append, or_and_right, exists_or, not_or]

end Registry

namespace Relay

/-! ### The main result -/

/--
**Addresses are screened over HTTP as they are in the program.**  At any time of any run, a request
whose body is read as a screening comes to one of two ends.  If each of its texts spells an
address, blanks aside, it gets the verdict of the check that is made for the list that it names and
for these addresses in their order, and this check is put on record.  If not, it gets back the
first text that spells none, as it was sent, and no check is made or put on record.  In either case
the book stays as it is but for its log.

Requests for the same addresses get the same answer, in whatever way these are spelled, and
whatever the order and the number of their texts.  A request for the texts of two others passes
just when both of them do.
-/
theorem screened_over_http {r : Relay} (h : r.registry.Arises) (es : List Event) :
    let s := (opened r).run es
    (∀ q x, Inspection.Brings q x → Inspection.Screened s.registry x (s.inspect q).1 ∧
      (s.inspect q).2.hush = s.hush) ∧
    (∀ p q list ss ts, Inspection.Brings p ⟨list, ss⟩ → Inspection.Brings q ⟨list, ts⟩ →
      Inspection.SameAddresses ss ts →
        ∃ verdict, (s.inspect p).1.response.Sends 200 (Inspection.verdictTree verdict) ∧
          (s.inspect q).1.response.Sends 200 (Inspection.verdictTree verdict)) ∧
    ∀ o p q list ss ts, Inspection.Brings o ⟨list, ss⟩ → Inspection.Brings p ⟨list, ts⟩ →
      Inspection.Brings q ⟨list, ss ++ ts⟩ →
        ((s.inspect q).1.Passes ↔ (s.inspect o).1.Passes ∧ (s.inspect p).1.Passes) := by
  intro s
  have harises : s.registry.Arises := arises_run (r := opened r) h es
  have hscreened : ∀ q x, Inspection.Brings q x →
      Inspection.Screened s.registry x (s.inspect q).1 :=
    fun q x hq => Inspection.screened_of_brings hq s
  refine ⟨fun q x hq => ⟨hscreened q x hq, s.hush_inspect q⟩, ?_, ?_⟩
  · rintro p q list ss ts hp hq ⟨as, bs, has, hbs, same⟩
    have hfirst := (hscreened p _ hp).sends has
    have hsecond := (hscreened q _ hq).sends hbs
    rw [← harises.compliant_same list same] at hsecond
    exact ⟨_, hfirst, hsecond⟩
  · intro o p q list ss ts ho hp hq
    rw [(hscreened o _ ho).passes_iff, (hscreened p _ hp).passes_iff, (hscreened q _ hq).passes_iff]
    constructor
    · rintro ⟨cs, hcs, hpasses⟩
      obtain ⟨as, bs, has, hbs, rfl⟩ := Inspection.spelled_append_iff.mp hcs
      obtain ⟨hfirst, hsecond⟩ := (harises.compliant_append list as bs).mp hpasses
      exact ⟨⟨as, has, hfirst⟩, bs, hbs, hsecond⟩
    · rintro ⟨⟨as, has, hfirst⟩, bs, hbs, hsecond⟩
      exact ⟨as ++ bs, Inspection.spelled_append_iff.mpr ⟨as, bs, has, hbs, rfl⟩,
        (harises.compliant_append list as bs).mpr ⟨hfirst, hsecond⟩⟩

/-- A text of an address that is only on the baseline of `nameless`. -/
def strayText : String := "  0X0202020202020202020202020202020202020202"

/-- A text of an address on its list `"custom"`. -/
def listedText : String := "0101010101010101010101010101010101010101 "

/-- One address passes and the other does not, so both together do not, and where a text spells
none the first such text is sent back. -/
theorem screened_over_http_nameless :
    let s := (opened nameless).run [.move 0, .move 0, .move 0]
    let ask := fun ss => Inspection.asking ⟨"custom", ss⟩
    nameless.registry.Arises ∧
      Inspection.Brings (ask [strayText]) ⟨"custom", [strayText]⟩ ∧
      Inspection.Brings (ask [listedText]) ⟨"custom", [listedText]⟩ ∧
      Inspection.Brings (ask [strayText, listedText]) ⟨"custom", [strayText, listedText]⟩ ∧
      Inspection.Brings (ask [listedText, "0x1", "?"]) ⟨"custom", [listedText, "0x1", "?"]⟩ ∧
      (s.inspect (ask [strayText])).1.Passes ∧
      ¬(s.inspect (ask [strayText, listedText])).1.Passes ∧
      (s.inspect (ask [listedText, "0x1", "?"])).1.response.Sends 400
        (Inspection.refusalTree "0x1") := by
  intro s ask
  have hone : Inspection.Brings (ask [strayText]) ⟨"custom", [strayText]⟩ :=
    Inspection.brings_asking (by decide +kernel)
  have hother : Inspection.Brings (ask [listedText]) ⟨"custom", [listedText]⟩ :=
    Inspection.brings_asking (by decide +kernel)
  have hboth : Inspection.Brings (ask [strayText, listedText])
      ⟨"custom", [strayText, listedText]⟩ := Inspection.brings_asking (by decide +kernel)
  have hbad : Inspection.Brings (ask [listedText, "0x1", "?"])
      ⟨"custom", [listedText, "0x1", "?"]⟩ := Inspection.brings_asking (by decide +kernel)
  have harises : nameless.registry.Arises := .fresh
  have hstray : List.Forall₂ Address.Spells [strayText] [Registry.blockedAddress] :=
    Inspection.parseAddresses_eq_ok_iff.mp (by decide +kernel)
  have hlisted : List.Forall₂ Address.Spells [listedText] [Registry.listedAddress] :=
    Inspection.parseAddresses_eq_ok_iff.mp (by decide +kernel)
  obtain ⟨hscreened, -, happend⟩ := screened_over_http harises [.move 0, .move 0, .move 0]
  have hpasses : (s.inspect (ask [strayText])).1.Passes := by
    refine (hscreened _ _ hone).1.passes_iff.mpr ⟨_, hstray, ?_⟩
    decide +kernel
  have hfails : ¬(s.inspect (ask [listedText])).1.Passes := by
    intro hlets
    obtain ⟨as, has, hcompliant⟩ := (hscreened _ _ hother).1.passes_iff.mp hlets
    rw [Inspection.spelled_unique has hlisted] at hcompliant
    revert hcompliant
    decide +kernel
  refine ⟨harises, hone, hother, hboth, hbad, hpasses, ?_, ?_⟩
  · intro hlets
    exact hfails ((happend _ _ _ _ _ _ hone hother hboth).mp hlets).2
  · have hread : ∃ e, Inspection.parseAddresses [listedText, "0x1", "?"] = .error ("0x1", e) :=
      ⟨_, rfl⟩
    obtain ⟨e, hread⟩ := hread
    exact (hscreened _ _ hbad).1.sends_refusal (Inspection.firstBad_of_error hread)

end Relay

end ProposerBook
