import Sponge.NetParserRuns

/-!
# Which error a parser reports

Errors come from two sides: a header parser calls `set_error`, and the size
check of every parsing call records `PacketTooShort`. The size check runs before
the test for an earlier error, so it also replaces one: the first cause survives
exactly as long as no call asks for more than is left (`step_getError_iff`).
`as_string` looks the result up in a table that has no entry for the last
enumerator.
-/

namespace Sponge

/-! ## Names -/

/-- The value of an enumerator. -/
def ParseResult.index : ParseResult → Nat
  | .noError => 0
  | .badChecksum => 1
  | .packetTooShort => 2
  | .wrongIPVersion => 3
  | .headerTooShort => 4
  | .truncatedPacket => 5
  | .unsupported => 6

/-- An enumerator's own name. -/
def ParseResult.name : ParseResult → String
  | .noError => "NoError"
  | .badChecksum => "BadChecksum"
  | .packetTooShort => "PacketTooShort"
  | .wrongIPVersion => "WrongIPVersion"
  | .headerTooShort => "HeaderTooShort"
  | .truncatedPacket => "TruncatedPacket"
  | .unsupported => "Unsupported"

/-- The array `_names` of `as_string`. -/
def resultNames : List String :=
  ["NoError", "BadChecksum", "PacketTooShort", "WrongIPVersion", "HeaderTooShort",
    "TruncatedPacket"]

/-- `as_string`; `none` is a read past the end of the array, which is undefined. -/
def asString (r : ParseResult) : Option String := resultNames[r.index]?

theorem asString_eq_name_iff (r : ParseResult) : asString r = some r.name ↔ r ≠ .unsupported := by
  cases r <;> decide

namespace NetParser

/-! ## Events -/

/-- What is done to a parser. The caller does not set `NoError`. -/
inductive Event where
  | call (c : Call)
  | setError (res : ParseResult) (proper : res ≠ .noError)

def Event.IsCall : Event → Prop
  | .call _ => True
  | .setError _ _ => False

def stepEvent (p : NetParser) : Event → NetParser × Except Exn Reply
  | .call c => p.step c
  | .setError res _ => (p.setError res, .ok .void)

/-- The parser after a sequence of events. -/
def afterEvents (buffer : Buffer) (events : List Event) : NetParser :=
  (Runs.run stepEvent (ofBuffer buffer) events).1

theorem afterEvents_concat (buffer : Buffer) (events : List Event) (event : Event) :
    afterEvents buffer (events ++ [event]) = ((afterEvents buffer events).stepEvent event).1 := by
  unfold afterEvents
  rw [Runs.run_append]
  rfl

/-- The error that the caller has set last. -/
def lastSet (events : List Event) : Option ParseResult :=
  events.foldl (fun last event =>
    match event with
    | .call _ => last
    | .setError res _ => some res) none

theorem lastSet_concat_call (events : List Event) (c : Call) :
    lastSet (events ++ [.call c]) = lastSet events := by
  rw [lastSet, List.foldl_append]
  rfl

theorem lastSet_concat_setError (events : List Event) (res : ParseResult)
    (proper : res ≠ .noError) :
    lastSet (events ++ [.setError res proper]) = some res := by
  rw [lastSet, List.foldl_append]
  rfl

/-- Once an error is recorded no parsing call changes it. -/
def KeepsError (buffer : Buffer) (events : List Event) : Prop :=
  ∀ before c after, events = before ++ .call c :: after →
    (afterEvents buffer before).error = true →
    (afterEvents buffer (before ++ [.call c])).getError = (afterEvents buffer before).getError

/-- Recorded errors are kept, so that the first one is the one found in the end unless
the caller sets another, and `as_string` gives its name. -/
structure ReportsFirst (buffer : Buffer) (events : List Event) : Prop where
  keeps : KeepsError buffer events
  final : ∀ first rest, events = first ++ rest → (afterEvents buffer first).error = true →
    (∀ event ∈ rest, event.IsCall) →
    (afterEvents buffer events).getError = (afterEvents buffer first).getError
  named : asString (afterEvents buffer events).getError =
    some (afterEvents buffer events).getError.name

/-- The condition: no parsing call asks for more than is left while another error
than `PacketTooShort` is recorded, and the last error set is not `Unsupported`. -/
structure Unmasked (buffer : Buffer) (events : List Event) : Prop where
  enough : ∀ before c after, events = before ++ .call c :: after →
    (afterEvents buffer before).buffer.size < c.size →
    (afterEvents buffer before).getError = .noError ∨
      (afterEvents buffer before).getError = .packetTooShort
  supported : lastSet events ≠ some .unsupported

/-! ## One call -/

/-- A call after an error keeps it unless the size check replaces it. -/
theorem step_getError_iff {p : NetParser} (failed : p.error = true) (c : Call) :
    (p.step c).1.getError = p.getError ↔
      (p.buffer.size < c.size → p.getError = .packetTooShort) := by
  rw [step_of_error (error_checkSize failed _)]
  rcases Nat.lt_or_ge p.buffer.size c.size with short | le
  · rw [checkSize_of_gt short]
    exact ⟨fun same _ => same.symm, fun implied => (implied short).symm⟩
  · rw [checkSize_of_le le]
    exact ⟨fun _ short => absurd short (Nat.not_lt.mpr le), fun _ => rfl⟩

/-- The parsing calls themselves record no other error. -/
theorem step_getError_of_own {p : NetParser}
    (own : p.getError = .noError ∨ p.getError = .packetTooShort) (c : Call) :
    (p.step c).1.getError = .noError ∨ (p.step c).1.getError = .packetTooShort := by
  rcases own with fresh | failed
  · rcases Nat.lt_or_ge p.buffer.str.length c.size with short | le
    · rw [step_of_gt short]
      exact .inr rfl
    · exact .inl (step_of_le fresh le).2.2
  · rw [step_of_packetTooShort c failed]
    exact .inr failed

/-! ## Sequences of events -/

variable {buffer : Buffer} {events : List Event}

theorem keepsError_iff :
    KeepsError buffer events ↔
    ∀ before c after, events = before ++ .call c :: after →
      (afterEvents buffer before).buffer.size < c.size →
      (afterEvents buffer before).getError = .noError ∨
        (afterEvents buffer before).getError = .packetTooShort := by
  constructor
  · intro keeps before c after split short
    by_cases failed : (afterEvents buffer before).error = true
    · have same := keeps before c after split failed
      rw [afterEvents_concat] at same
      exact .inr ((step_getError_iff failed c).mp same short)
    · rw [Bool.not_eq_true, error_eq_false] at failed
      exact .inl failed
  · intro enough before c after split failed
    rw [afterEvents_concat]
    refine (step_getError_iff failed c).mpr fun short => ?_
    rcases enough before c after split short with fresh | own
    · exact absurd fresh (error_eq_true.mp failed)
    · exact own

/-- Calls alone do not change a recorded error. -/
theorem KeepsError.append_calls (keeps : KeepsError buffer events) {first rest : List Event}
    (failed : (afterEvents buffer first).error = true) (calls : ∀ event ∈ rest, event.IsCall)
    (after : List Event) (split : events = first ++ rest ++ after) :
    (afterEvents buffer (first ++ rest)).getError = (afterEvents buffer first).getError := by
  induction rest using List.reverseRecOn generalizing after with
  | nil => rw [List.append_nil]
  | append_singleton rest event ih =>
      have kept := ih (fun event member => calls event (List.mem_append_left _ member))
        (event :: after) (by simpa using split)
      cases event with
      | setError res proper => exact (calls (.setError res proper) (by simp)).elim
      | call c =>
          have still : (afterEvents buffer (first ++ rest)).error = true := by
            rw [error, kept]
            exact failed
          rw [← List.append_assoc, keeps (first ++ rest) c after (by simpa using split) still,
            kept]

/-- While errors are kept, the one recorded is the one set last, or else the
parsing calls' own. -/
theorem KeepsError.getError_eq (keeps : KeepsError buffer events) {first : List Event}
    (after : List Event) (split : events = first ++ after) :
    match lastSet first with
    | some res => (afterEvents buffer first).getError = res ∧ res ≠ .noError
    | none => (afterEvents buffer first).getError = .noError ∨
        (afterEvents buffer first).getError = .packetTooShort := by
  induction first using List.reverseRecOn generalizing after with
  | nil => exact .inl rfl
  | append_singleton first event ih =>
      have before := ih (event :: after) (by simpa using split)
      cases event with
      | setError res proper =>
          rw [lastSet_concat_setError, afterEvents_concat]
          exact ⟨rfl, proper⟩
      | call c =>
          rw [lastSet_concat_call]
          cases last : lastSet first with
          | none =>
              rw [last] at before
              rw [afterEvents_concat]
              exact step_getError_of_own before c
          | some res =>
              rw [last] at before
              obtain ⟨same, proper⟩ := before
              have failed : (afterEvents buffer first).error = true := by
                rw [error_eq_true]
                exact fun fresh => proper (same.symm.trans fresh)
              refine ⟨?_, proper⟩
              rw [keeps first c after (by simpa using split) failed, same]

/-- While errors are kept, `Unsupported` is recorded only if it was set last. -/
theorem KeepsError.unsupported_iff (keeps : KeepsError buffer events) :
    (afterEvents buffer events).getError = .unsupported ↔
      lastSet events = some .unsupported := by
  have last := keeps.getError_eq [] (List.append_nil events).symm
  cases set : lastSet events with
  | none =>
      rw [set] at last
      rcases last with fresh | own
      · simp [fresh]
      · simp [own]
  | some res =>
      rw [set] at last
      rw [last.1, Option.some_inj]

/-- **When the first parse error is the one reported.** For every buffer and
every sequence of parsing calls and `set_error` calls, the error recorded first
stays and is named exactly if no parsing call asks for more than is left while an
error other than `PacketTooShort` is recorded, and the error set last is not
`Unsupported`. -/
theorem reportsFirst_iff (buffer : Buffer) (events : List Event) :
    ReportsFirst buffer events ↔ Unmasked buffer events := by
  constructor
  · intro reports
    rcases reports with ⟨keeps, -, named⟩
    refine ⟨keepsError_iff.mp keeps, ?_⟩
    rw [Ne, ← keeps.unsupported_iff]
    exact (asString_eq_name_iff _).mp named
  · intro unmasked
    rcases unmasked with ⟨enough, supported⟩
    have keeps := keepsError_iff.mpr enough
    refine ⟨keeps, ?_, ?_⟩
    · intro first rest split failed calls
      rw [split]
      exact keeps.append_calls failed calls [] (by rw [List.append_nil, split])
    · rw [asString_eq_name_iff, Ne, keeps.unsupported_iff]
      exact supported

/-- A bad checksum is found and then a byte is asked for that is not there. And
the name of `Unsupported` is not in the table. -/
theorem badChecksum_masked :
    let buffer := Buffer.ofString [] (by decide)
    let events : List Event := [.setError .badChecksum (by decide), .call (.int .u8)]
    (afterEvents buffer (events.take 1)).getError = .badChecksum ∧
    (afterEvents buffer events).getError = .packetTooShort ∧
    asString .unsupported = none ∧ ¬ ReportsFirst buffer events := by
  intro buffer events
  refine ⟨rfl, by decide, rfl, ?_⟩
  intro reports
  have kept := reports.keeps [.setError .badChecksum (by decide)] (.int .u8) [] rfl rfl
  exact absurd kept (by decide)

end NetParser

end Sponge
