/-
What is shown to who asks for a slot over HTTP.

A request asks for a slot if its path leads there and the segment for the slot, decoded, is a
number that is the slot.  The plain number is one such segment.  What is shown is told as the
client gets it: the status, and the tree that the text of the body is scanned as, in which the
numbers stand for themselves and the text of the address is read back.
-/
import Mathlib.Data.List.TakeWhile
import ProposerBook.Proofs.Address
import ProposerBook.Proofs.Json.Write
import ProposerBook.Proofs.Text.Decimal
import ProposerBook.Proofs.Url.PercentEncoding
import ProposerBook.Relay.Inspection

namespace ProposerBook

namespace Inspection

open Json (Tree Value)

/-! ### Requests for a slot -/

/-- A request that asks what counts for a slot. -/
structure Asks (q : Request) (slot : UInt64) : Prop where
  method : q.method = "GET"
  path : ∃ segment text, route? (path q.target) = some (.validator segment) ∧
    (PercentEncoding.decode (Bytes.ofString (String.ofList segment))).toString? = some text ∧
    Decimal.parseWord text = .ok slot

theorem route?_validator {segment : List Char} (nonempty : segment ≠ [])
    (unslashed : '/' ∉ segment) :
    route? ("/validators/".toList ++ segment) = some (.validator segment) := by
  have hsplit : ("/validators/".toList ++ segment).splitOn '/' =
      [[], "validators".toList, segment] := by
    have hlist : "/validators/".toList ++ segment =
        [] ++ '/' :: ("validators".toList ++ '/' :: segment) := rfl
    rw [hlist, List.splitOn_append_cons_self_of_not_mem List.not_mem_nil,
      List.splitOn_append_cons_self_of_not_mem (by decide), List.splitOn_eq_singleton unslashed]
  have hname : String.ofList segment ≠ "" := by
    intro hempty
    have hlist := congrArg String.toList hempty
    rw [String.toList_ofList] at hlist
    exact nonempty hlist
  unfold route?
  rw [hsplit]
  show (if String.ofList segment = "" then none else
    some (Route.validator (String.ofList segment).toList)) = _
  rw [if_neg hname, String.toList_ofList]

theorem ne_of_isDigit {c d : Char} (h : c.isDigit = true) (hd : d.isDigit = false) : c ≠ d := by
  rintro rfl
  rw [h] at hd
  cases hd

theorem ascii_of_isDigit {c : Char} (h : c.isDigit = true) : c.toNat < 128 :=
  Nat.lt_of_le_of_lt (Char.isDigit_iff_toNat.mp h).2 (by decide)

/-- The plain number asks for the slot. -/
theorem asks_toString {q : Request} {slot : UInt64} (method : q.method = "GET")
    (target : q.target = "/validators/" ++ toString slot.toNat) : Asks q slot := by
  have hdigits : ∀ c ∈ Nat.toDigits 10 slot.toNat, c.isDigit = true :=
    fun c hc => Nat.isDigit_of_mem_toDigits (by decide) (by decide) hc
  have hpath : path q.target = "/validators/".toList ++ Nat.toDigits 10 slot.toNat := by
    unfold path
    rw [target, String.toList_append, Nat.toString_eq_repr, Nat.toList_repr]
    refine List.takeWhile_eq_self_iff.mpr ?_
    intro c hc
    rcases List.mem_append.mp hc with hc | hc
    · have hplain : ("/validators/".toList.all fun c => c != '?' && c != '#') = true := by decide
      exact List.all_eq_true.mp hplain c hc
    · have hquery := ne_of_isDigit (d := '?') (hdigits c hc) rfl
      have hhash := ne_of_isDigit (d := '#') (hdigits c hc) rfl
      rw [Bool.and_eq_true, bne_iff_ne, bne_iff_ne]
      exact ⟨hquery, hhash⟩
  have hroute : route? (path q.target) = some (.validator (Nat.toDigits 10 slot.toNat)) := by
    rw [hpath]
    exact route?_validator Nat.toDigits_ne_nil
      fun hc => ne_of_isDigit (hdigits '/' hc) (by decide) rfl
  refine ⟨method, _, toString slot.toNat, hroute, ?_, Decimal.parseWord_toString slot⟩
  rw [PercentEncoding.decode_ofString (fun c hc => ascii_of_isDigit (hdigits c hc))
    (fun hc => ne_of_isDigit (hdigits '%' hc) (by decide) rfl), Bytes.toString?_ofString]
  rfl

/-! ### What is shown -/

/-- The fields of a tree that presents preferences, with the literals that stand in it. -/
def shownFields (p : Preferences) (slot gasLimit : Json.Literal) (feeRecipient : String) :
    List (Json.StringLiteral × Tree) :=
  let list := p.complianceList.map fun name => (.ok "complianceList", .string (.ok name))
  (.ok "slot", .number slot) :: (.ok "pubkey", .string (.ok p.pubkey)) ::
    (.ok "feeRecipient", .string (.ok feeRecipient)) :: (.ok "gasLimit", .number gasLimit) ::
    list.toList

/-- A tree that presents what counts for a slot: these fields and no others, and a list only where
one is named. -/
def Presents (slot : UInt64) (p : Preferences) (t : Tree) : Prop :=
  ∃ a f b, t = .object (shownFields p a b f) none ∧
    a.number = .ok (.natural slot.toNat) ∧ Address.parse f = .ok p.feeRecipient ∧
    b.number = .ok (.natural p.gasLimit.toNat)

/-- What a response shows of an answer. -/
inductive Shows (slot : UInt64) : Except RelayError Preferences → Response → Prop
  | found {p : Preferences} {v : Value} {t : Tree} (text : Json.scan v.write = ⟨t, false⟩)
      (view : Presents slot p t) : Shows slot (.ok p) { status := 200, body := some v }
  | unknown (body : Option Value) : Shows slot (.error .notFound) { status := 404, body }

theorem sound_preferencesValue (slot : UInt64) (p : Preferences) :
    (preferencesValue slot p).Sound := by
  unfold preferencesValue
  cases p.complianceList with
  | none => exact ⟨Json.sound_nat _, trivial, trivial, Json.sound_nat _, trivial⟩
  | some name => exact ⟨Json.sound_nat _, trivial, trivial, Json.sound_nat _, trivial, trivial⟩

theorem presents_preferencesValue (slot : UInt64) (p : Preferences) :
    Presents slot p (.ofValue (preferencesValue slot p)) := by
  refine ⟨_, p.feeRecipient.toText, _, ?_, Json.number_natDigits slot.toNat_lt,
    Address.parse_toText _, Json.number_natDigits p.gasLimit.toNat_lt⟩
  unfold preferencesValue shownFields
  cases p.complianceList with
  | none => rfl
  | some name => rfl

/-- What is shown is the answer for the slot, and nothing else of the book counts. -/
theorem response_of_asks {q : Request} {slot : UInt64} (asks : Asks q slot) (r : Relay) :
    (answer r q).1.response = preferencesResponse slot (r.answer slot) := by
  obtain ⟨method, segment, text, hroute, htext, hslot⟩ := asks
  have hshow : showValidator r segment =
      ({ response := preferencesResponse slot (r.peek slot).1 }, (r.peek slot).2) := by
    simp only [showValidator, htext, hslot]
  unfold answer
  rw [hroute, method]
  exact congrArg (fun x : Answer × Relay => x.1.response) hshow

theorem answer_cases (r : Relay) (slot : UInt64) :
    (∃ p, r.answer slot = .ok p) ∨ r.answer slot = .error .notFound := by
  unfold Relay.answer
  cases (r.override? slot).or (r.cache.slots.get? slot) with
  | some p => exact Or.inl ⟨p, rfl⟩
  | none => exact Or.inr rfl

theorem shows_answer {q : Request} {slot : UInt64} (asks : Asks q slot) (r : Relay) :
    Shows slot (r.answer slot) (answer r q).1.response := by
  rw [response_of_asks asks]
  rcases answer_cases r slot with ⟨p, hp⟩ | hp
  · rw [hp]
    exact .found (Json.scan_write (sound_preferencesValue slot p))
      (presents_preferencesValue slot p)
  · rw [hp]
    exact .unknown _

end Inspection

end ProposerBook
