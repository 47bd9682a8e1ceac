import Sponge.Lib.Runs
import Sponge.NetParser

/-!
# Runs of the parser

A packet is parsed by a sequence of `u8`, `u16`, `u32` and `remove_prefix` calls
on one `NetParser`. What each of them does depends only on the bytes that all
calls so far have asked for: `need` is their number, and the first call that
takes it past the end of the data is the one that fails. From these run lemmas
follow the two directions of the round trip with `NetUnparser`.
-/

namespace Sponge

namespace NetParser

/-- A call of a parsing function. -/
inductive Call where
  | int (w : Width)
  | removePrefix (n : Nat)
  deriving DecidableEq, Repr

/-- What a call returns. -/
inductive Reply where
  | int {w : Width} (val : BitVec w.bits)
  | void
  deriving DecidableEq, Repr

/-- The number of bytes a call asks for. -/
def Call.size : Call → Nat
  | .int w => w.len
  | .removePrefix n => n

/-- The reply to a call that is given these bytes. -/
def Call.reply : Call → Bytes → Reply
  | .int w, bytes => .int (BitVec.ofNat w.bits (bigEndian bytes))
  | .removePrefix _, _ => .void

/-- The reply of a call that fails: `0`, where the function returns anything. -/
def Call.zero : Call → Reply
  | .int w => .int (0 : BitVec w.bits)
  | .removePrefix _ => .void

def step (p : NetParser) : Call → NetParser × Except Exn Reply
  | .int w =>
      match p.parseInt w with
      | .ok (val, p') => (p', .ok (.int val))
      | .error e => (p, .error e)
  | .removePrefix n =>
      match p.removePrefix n with
      | .ok p' => (p', .ok .void)
      | .error e => (p, .error e)

/-- A sequence of calls on a fresh parser. -/
def run (buffer : Buffer) (calls : List Call) : NetParser × List (Except Exn Reply) :=
  Runs.run step (ofBuffer buffer) calls

/-- The number of bytes that a sequence of calls asks for. -/
def need (calls : List Call) : Nat := (calls.map Call.size).sum

@[simp] theorem need_nil : need [] = 0 := rfl

@[simp] theorem need_cons (c : Call) (calls : List Call) :
    need (c :: calls) = c.size + need calls := by
  simp [need]

theorem need_append (first second : List Call) :
    need (first ++ second) = need first + need second := by
  simp [need]

theorem need_concat (calls : List Call) (c : Call) : need (calls ++ [c]) = need calls + c.size := by
  rw [need_append, need_cons, need_nil, Nat.add_zero]

/-! ## One call -/

/-- A call that fits consumes its bytes and answers with their value. -/
theorem step_of_le {p : NetParser} {c : Call} (fresh : p.result = .noError)
    (le : c.size ≤ p.buffer.str.length) :
    (p.step c).2 = .ok (c.reply (p.buffer.str.take c.size)) ∧
      (p.step c).1.buffer.str = p.buffer.str.drop c.size ∧
      (p.step c).1.result = .noError := by
  cases c with
  | int w =>
      obtain ⟨buffer, parsed, left⟩ := parseInt_of_le fresh le
      simp only [step, parsed]
      exact ⟨rfl, left, fresh⟩
  | removePrefix n =>
      obtain ⟨buffer, removed, left⟩ := removePrefix_of_le (n := n) fresh le
      simp only [step, removed]
      exact ⟨rfl, left, fresh⟩

theorem step_of_error {p : NetParser} {c : Call} (failed : (p.checkSize c.size).error = true) :
    p.step c = (p.checkSize c.size, .ok c.zero) := by
  cases c with
  | int w =>
      simp only [step, parseInt_of_error failed]
      rfl
  | removePrefix n =>
      simp only [step, removePrefix_of_error (n := n) failed]
      rfl

/-- A call that asks for too much answers zero, consumes nothing and records the error. -/
theorem step_of_gt {p : NetParser} {c : Call} (short : p.buffer.str.length < c.size) :
    p.step c = (p.setError .packetTooShort, .ok c.zero) := by
  have checked := checkSize_of_gt short
  rw [step_of_error (by rw [checked]; rfl), checked]

/-- After an error every call answers zero and consumes nothing. -/
theorem step_of_packetTooShort {p : NetParser} (c : Call) (failed : p.result = .packetTooShort) :
    p.step c = (p, .ok c.zero) := by
  have sticky : p.error = true := error_eq_true.mpr (by rw [failed]; decide)
  rw [step_of_error (error_checkSize sticky _)]
  unfold checkSize setError
  rw [← failed]
  split <;> rfl

/-! ## Sequences of calls -/

theorem run_concat (buffer : Buffer) (calls : List Call) (c : Call) :
    run buffer (calls ++ [c]) =
      (((run buffer calls).1.step c).1, (run buffer calls).2 ++ [((run buffer calls).1.step c).2]) := by
  unfold run
  rw [Runs.run_append]
  rfl

/-- As long as the data suffices, exactly the bytes asked for are gone. -/
theorem run_of_le {buffer : Buffer} {calls : List Call} (le : need calls ≤ buffer.str.length) :
    (run buffer calls).1.buffer.str = buffer.str.drop (need calls) ∧
      (run buffer calls).1.result = .noError := by
  induction calls using List.reverseRecOn with
  | nil => exact ⟨rfl, rfl⟩
  | append_singleton calls c ih =>
      rw [need_concat] at le
      obtain ⟨left, fresh⟩ := ih (by omega)
      have room : c.size ≤ (run buffer calls).1.buffer.str.length := by
        rw [left, List.length_drop]
        omega
      obtain ⟨-, rest, clean⟩ := step_of_le fresh room
      rw [run_concat, need_concat]
      refine ⟨?_, clean⟩
      rw [rest, left, List.drop_drop]

/-- Once the data has not sufficed, the error stays. -/
theorem run_of_gt {buffer : Buffer} {calls : List Call} (short : buffer.str.length < need calls) :
    (run buffer calls).1.result = .packetTooShort := by
  induction calls using List.reverseRecOn with
  | nil => simp at short
  | append_singleton calls c ih =>
      rw [need_concat] at short
      rw [run_concat]
      rcases Nat.lt_or_ge buffer.str.length (need calls) with before | enough
      · rw [step_of_packetTooShort c (ih before)]
        exact ih before
      · obtain ⟨left, -⟩ := run_of_le enough
        have lacking : (run buffer calls).1.buffer.str.length < c.size := by
          rw [left, List.length_drop]
          omega
        rw [step_of_gt lacking]
        rfl

/-- The call after `calls`, when everything asked for so far and by it fits. -/
theorem step_run_of_le {buffer : Buffer} {calls : List Call} {c : Call}
    (le : need (calls ++ [c]) ≤ buffer.str.length) :
    ((run buffer calls).1.step c).2 =
        .ok (c.reply ((buffer.str.drop (need calls)).take c.size)) ∧
      ((run buffer calls).1.step c).1.buffer.str = buffer.str.drop (need (calls ++ [c])) := by
  rw [need_concat] at le ⊢
  have enough : need calls ≤ buffer.str.length := by omega
  obtain ⟨left, fresh⟩ := run_of_le enough
  have room : c.size ≤ (run buffer calls).1.buffer.str.length := by
    rw [left, List.length_drop]
    omega
  obtain ⟨answer, rest, -⟩ := step_of_le fresh room
  rw [answer, rest, left, List.drop_drop]
  exact ⟨rfl, rfl⟩

/-- The call after `calls`, when it or one before it asks for too much. -/
theorem step_run_of_gt {buffer : Buffer} {calls : List Call} {c : Call}
    (short : buffer.str.length < need (calls ++ [c])) :
    ((run buffer calls).1.step c).2 = .ok c.zero ∧
      ((run buffer calls).1.step c).1.buffer.str = (run buffer calls).1.buffer.str := by
  rcases Nat.lt_or_ge buffer.str.length (need calls) with before | enough
  · rw [step_of_packetTooShort c (run_of_gt before)]
    exact ⟨rfl, rfl⟩
  · obtain ⟨left, -⟩ := run_of_le enough
    have lacking : (run buffer calls).1.buffer.str.length < c.size := by
      rw [need_concat] at short
      rw [left, List.length_drop]
      omega
    rw [step_of_gt lacking]
    exact ⟨rfl, rfl⟩

/-- The data has not sufficed exactly when some call has asked for more than remained. -/
theorem need_exceeds_iff (buffer : Buffer) (calls : List Call) :
    buffer.str.length < need calls ↔
      ∃ before c after, calls = before ++ c :: after ∧
        (run buffer before).1.buffer.str.length < c.size := by
  constructor
  · intro short
    induction calls using List.reverseRecOn with
    | nil => simp at short
    | append_singleton calls c ih =>
        rcases Nat.lt_or_ge buffer.str.length (need calls) with before | enough
        · obtain ⟨first, d, after, rfl, lacking⟩ := ih before
          exact ⟨first, d, after ++ [c], by simp, lacking⟩
        · refine ⟨calls, c, [], rfl, ?_⟩
          rw [need_concat] at short
          rw [(run_of_le enough).1, List.length_drop]
          omega
  · rintro ⟨before, c, after, rfl, lacking⟩
    rw [need_append, need_cons]
    rcases Nat.lt_or_ge buffer.str.length (need before) with short | enough
    · omega
    · rw [(run_of_le enough).1, List.length_drop] at lacking
      omega

/-- **Semantics of a run.** On any buffer and after any calls, the next call
returns without an exception. If everything asked for up to and including it
fits, it consumes exactly its width and returns the big-endian value; otherwise,
that is from the first call that asks for more than remains on, it returns zero
and leaves the data alone. The error flag tells the two apart. -/
theorem run_semantics (buffer : Buffer) (calls : List Call) (c : Call) :
    (need (calls ++ [c]) ≤ buffer.str.length →
      (run buffer (calls ++ [c])).2 = (run buffer calls).2 ++
          [.ok (c.reply ((buffer.str.drop (need calls)).take c.size))] ∧
        (run buffer (calls ++ [c])).1.buffer.str = buffer.str.drop (need (calls ++ [c]))) ∧
    (buffer.str.length < need (calls ++ [c]) →
      (run buffer (calls ++ [c])).2 = (run buffer calls).2 ++ [.ok c.zero] ∧
        (run buffer (calls ++ [c])).1.buffer.str = (run buffer calls).1.buffer.str) ∧
    ((run buffer calls).1.error = true ↔ ∃ before d after, calls = before ++ d :: after ∧
      (run buffer before).1.buffer.str.length < d.size) ∧
    ((run buffer calls).1.error = true → (run buffer calls).1.getError = .packetTooShort) ∧
    (∀ reply ∈ (run buffer calls).2, ∃ r, reply = .ok r) := by
  rw [← need_exceeds_iff]
  refine ⟨fun le => ?_, fun short => ?_, ⟨fun failed => ?_, fun short => ?_⟩, fun failed => ?_, ?_⟩
  · obtain ⟨answer, rest⟩ := step_run_of_le le
    rw [run_concat, answer]
    exact ⟨rfl, rest⟩
  · obtain ⟨answer, rest⟩ := step_run_of_gt short
    rw [run_concat, answer]
    exact ⟨rfl, rest⟩
  · rcases Nat.lt_or_ge buffer.str.length (need calls) with short | le
    · exact short
    · exact absurd (run_of_le le).2 (error_eq_true.mp failed)
  · exact error_eq_true.mpr (by rw [run_of_gt short]; decide)
  · rcases Nat.lt_or_ge buffer.str.length (need calls) with short | le
    · exact run_of_gt short
    · exact absurd (run_of_le le).2 (error_eq_true.mp failed)
  · induction calls using List.reverseRecOn with
    | nil => exact fun _ member => absurd member List.not_mem_nil
    | append_singleton calls d ih =>
        intro reply member
        rw [run_concat, List.mem_append, List.mem_singleton] at member
        rcases member with earlier | rfl
        · exact ih reply earlier
        · rcases Nat.lt_or_ge buffer.str.length (need (calls ++ [d])) with short | le
          · exact ⟨_, (step_run_of_gt short).1⟩
          · exact ⟨_, (step_run_of_le le).1⟩

end NetParser

/-! ## Round trips -/

/-- A typed field of a message. -/
structure Field where
  width : Width
  val : BitVec width.bits
  deriving DecidableEq

namespace Field

/-- Append fields to a string with `NetUnparser`. -/
def unparse (s : Bytes) (fields : List Field) : Bytes :=
  fields.foldl (fun s f => NetUnparser.unparseInt f.width s f.val) s

def bytes (fields : List Field) : Bytes := fields.flatMap fun f => NetUnparser.encode f.val

/-- The call that parses a field, and the reply it should give. -/
def call (f : Field) : NetParser.Call := .int f.width

def reply (f : Field) : Except Exn NetParser.Reply := .ok (.int f.val)

@[simp] theorem size_call (f : Field) : f.call.size = f.width.len := rfl

theorem unparse_eq (s : Bytes) (fields : List Field) : unparse s fields = s ++ bytes fields := by
  simp only [unparse, NetUnparser.unparseInt_eq, List.foldl_append_eq_append]
  rfl

theorem length_bytes (fields : List Field) :
    (bytes fields).length = NetParser.need (fields.map call) := by
  induction fields with
  | nil => rfl
  | cons f fields ih =>
      rw [bytes, List.flatMap_cons, List.length_append, NetUnparser.length_encode, List.map_cons,
        NetParser.need_cons, ← ih]
      rfl

/-- Fields that stand in the data right after what has been consumed are parsed as they are. -/
theorem run_fields {buffer : Buffer} {calls : List NetParser.Call} {fields : List Field}
    {consumed t : Bytes} (data : buffer.str = consumed ++ bytes fields ++ t)
    (position : NetParser.need calls = consumed.length) :
    (NetParser.run buffer (calls ++ fields.map call)).2 =
      (NetParser.run buffer calls).2 ++ fields.map reply := by
  induction fields using List.reverseRecOn generalizing t with
  | nil => simp
  | append_singleton fields f ih =>
      have split : bytes (fields ++ [f]) = bytes fields ++ NetUnparser.encode f.val := by
        simp [bytes]
      have data' : buffer.str = consumed ++ bytes fields ++ (NetUnparser.encode f.val ++ t) := by
        rw [data, split]
        simp only [List.append_assoc]
      have needed : NetParser.need (calls ++ fields.map call) =
          (consumed ++ bytes fields).length := by
        rw [NetParser.need_append, position, List.length_append, length_bytes]
      have enough : NetParser.need ((calls ++ fields.map call) ++ [f.call]) ≤
          buffer.str.length := by
        rw [NetParser.need_concat, needed, data']
        simp only [List.length_append, NetUnparser.length_encode, size_call]
        omega
      obtain ⟨answer, -⟩ := NetParser.step_run_of_le enough
      rw [needed, data', List.drop_left, size_call,
        List.take_left' (NetUnparser.length_encode f.val)] at answer
      rw [List.map_append, ← List.append_assoc, List.map_singleton, NetParser.run_concat, answer,
        ih data', List.map_append, List.append_assoc]
      simp only [call, reply, NetParser.Call.reply, NetUnparser.bigEndian_encode,
        BitVec.ofNat_toNat, BitVec.setWidth_eq, List.map_cons, List.map_nil]

/-- The fields that a list of widths cuts a byte string into. -/
def decode : List Width → Bytes → List Field
  | [], _ => []
  | w :: ws, data =>
      ⟨w, BitVec.ofNat w.bits (bigEndian (data.take w.len))⟩ :: decode ws (data.drop w.len)

theorem map_call_decode (ws : List Width) (data : Bytes) :
    (decode ws data).map call = ws.map .int := by
  induction ws generalizing data with
  | nil => rfl
  | cons w ws ih =>
      rw [decode, List.map_cons, List.map_cons, ih]
      rfl

theorem map_width_decode (ws : List Width) (data : Bytes) :
    (decode ws data).map width = ws := by
  induction ws generalizing data with
  | nil => rfl
  | cons w ws ih => rw [decode, List.map_cons, ih]

theorem bytes_decode {ws : List Width} {data : Bytes}
    (enough : NetParser.need (ws.map .int) ≤ data.length) :
    bytes (decode ws data) = data.take (NetParser.need (ws.map .int)) := by
  induction ws generalizing data with
  | nil => simp [decode, bytes]
  | cons w ws ih =>
      rw [List.map_cons, NetParser.need_cons] at enough ⊢
      have width : (NetParser.Call.int w).size = w.len := rfl
      have head : (data.take w.len).length = w.len := List.length_take_of_le (by omega)
      have rest : bytes (decode ws (data.drop w.len)) =
          (data.drop w.len).take (NetParser.need (ws.map .int)) :=
        ih (by rw [List.length_drop]; omega)
      rw [bytes] at rest ⊢
      rw [decode, List.flatMap_cons, rest, NetUnparser.encode_bigEndian head, width, List.take_add]

/-- Parsing what was appended to `s` gives the fields back. -/
theorem run_unparse {buffer : Buffer} {s t : Bytes} {fields : List Field}
    (data : buffer.str = unparse s fields ++ t) :
    (NetParser.run buffer (.removePrefix s.length :: fields.map call)).2 =
        .ok .void :: fields.map reply ∧
      (NetParser.run buffer (.removePrefix s.length :: fields.map call)).1.error = false ∧
      (NetParser.run buffer (.removePrefix s.length :: fields.map call)).1.buffer.str = t := by
  rw [unparse_eq] at data
  have needed : NetParser.need (.removePrefix s.length :: fields.map call) =
      (s ++ bytes fields).length := by
    rw [NetParser.need_cons, List.length_append, length_bytes]
    rfl
  have enough : NetParser.need (.removePrefix s.length :: fields.map call) ≤
      buffer.str.length := by
    rw [needed, data]
    simp only [List.length_append]
    omega
  have skipped : NetParser.need ([] ++ [.removePrefix s.length]) ≤ buffer.str.length := by
    rw [NetParser.need_cons] at enough
    rw [NetParser.need_concat, NetParser.need_nil]
    omega
  have first : (NetParser.run buffer [.removePrefix s.length]).2 = [.ok .void] := by
    rw [← List.nil_append [_], NetParser.run_concat, (NetParser.step_run_of_le skipped).1]
    rfl
  have parsed : (NetParser.run buffer ([.removePrefix s.length] ++ fields.map call)).2 =
      (NetParser.run buffer [.removePrefix s.length]).2 ++ fields.map reply :=
    run_fields data (Nat.add_zero _)
  rw [first] at parsed
  obtain ⟨left, clean⟩ := NetParser.run_of_le enough
  refine ⟨parsed, NetParser.error_eq_false.mpr clean, ?_⟩
  rw [left, needed, data, List.drop_left]

/-- Unparsing what was parsed gives the bytes back. -/
theorem unparse_run {buffer : Buffer} {ws : List Width}
    (enough : NetParser.need (ws.map .int) ≤ buffer.str.length) :
    (NetParser.run buffer (ws.map .int)).2 = (decode ws buffer.str).map reply ∧
      unparse [] (decode ws buffer.str) = buffer.str.take (NetParser.need (ws.map .int)) := by
  have consumed := bytes_decode enough
  refine ⟨?_, by rw [unparse_eq, consumed, List.nil_append]⟩
  have data : buffer.str = [] ++ bytes (decode ws buffer.str) ++
      buffer.str.drop (NetParser.need (ws.map .int)) := by
    rw [consumed, List.nil_append, List.take_append_drop]
  have parsed : (NetParser.run buffer ([] ++ (decode ws buffer.str).map call)).2 =
      (NetParser.run buffer []).2 ++ (decode ws buffer.str).map reply :=
    run_fields data rfl
  rw [List.nil_append, map_call_decode] at parsed
  exact parsed

end Field

/-- **`NetUnparser` and `NetParser` are inverse to each other.** Fields appended
to any string and followed by any data are parsed back, after the string has been
skipped, with their values, without an error and leaving the data. Conversely,
unparsing what was parsed from any buffer by any list of widths that it is long
enough for gives the bytes consumed, the rest being left. -/
theorem parse_unparse :
    (∀ (s t : Bytes) (fields : List Field)
      (fits : (Field.unparse s fields ++ t).length < sizeModulus),
      (NetParser.run (Buffer.ofString (Field.unparse s fields ++ t) fits)
          (.removePrefix s.length :: fields.map Field.call)).2 =
        .ok .void :: fields.map Field.reply ∧
      (NetParser.run (Buffer.ofString (Field.unparse s fields ++ t) fits)
          (.removePrefix s.length :: fields.map Field.call)).1.error = false ∧
      (NetParser.run (Buffer.ofString (Field.unparse s fields ++ t) fits)
          (.removePrefix s.length :: fields.map Field.call)).1.buffer.str = t) ∧
    (∀ (buffer : Buffer) (ws : List Width),
      NetParser.need (ws.map .int) ≤ buffer.str.length →
      ∃ fields : List Field, fields.map Field.width = ws ∧
        (NetParser.run buffer (ws.map .int)).2 = fields.map Field.reply ∧
        (NetParser.run buffer (ws.map .int)).1.error = false ∧
        Field.unparse [] fields = buffer.str.take (NetParser.need (ws.map .int)) ∧
        (NetParser.run buffer (ws.map .int)).1.buffer.str =
          buffer.str.drop (NetParser.need (ws.map .int))) := by
  refine ⟨fun s t fields fits => Field.run_unparse (Buffer.str_ofString _ fits), ?_⟩
  intro buffer ws enough
  obtain ⟨parsed, unparsed⟩ := Field.unparse_run enough
  obtain ⟨left, clean⟩ := NetParser.run_of_le enough
  exact ⟨Field.decode ws buffer.str, Field.map_width_decode ws buffer.str, parsed,
    NetParser.error_eq_false.mpr clean, unparsed, left⟩

end Sponge
