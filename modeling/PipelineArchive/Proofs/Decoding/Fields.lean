import PipelineArchive.Proofs.Decoding.Consumption

/-!
# Fields

What is encoded is a row of fields, each a value of one of a few types. A row of fields is read
back by a row of decoders of their types, whatever bytes follow (`row_fields`): every field tells
where it ends.

A reader may also be called again after a call that failed. `visits` is what happens in a row of
calls on any bytes. The cursor goes forward and stays within the bytes, and a call that succeeds
has taken the bytes that its value is encoded as, so that there is one way only to write a value
(`visits_canonical`).
-/

set_option autoImplicit false

namespace PipelineArchive

/-- The types of fields. Raw bytes stand without their length, which the reader has to know. -/
inductive FieldType where
  | u8
  | u32
  | u64
  | i32
  | single
  | bool
  | text
  | sized
  | words
  | raw (length : Nat)
  deriving DecidableEq, Repr

/-- A field: a value of one of the types. -/
inductive Field where
  | u8 (value : UInt8)
  | u32 (value : UInt32)
  | u64 (value : UInt64)
  | i32 (value : Int32)
  | single (value : Single)
  | bool (value : Bool)
  | text (value : String)
  | sized (value : Bytes)
  | words (value : List UInt32)
  | raw (value : Bytes)
  deriving DecidableEq, Repr

namespace Field

/-- The type of a field. -/
def type : Field → FieldType
  | u8 _ => .u8
  | u32 _ => .u32
  | u64 _ => .u64
  | i32 _ => .i32
  | single _ => .single
  | bool _ => .bool
  | text _ => .text
  | sized _ => .sized
  | words _ => .words
  | raw value => .raw value.length

/-- The bytes that a field is written as. -/
def bytes : Field → Bytes
  | u8 value => encode value
  | u32 value => encode value
  | u64 value => encode value
  | i32 value => encode value
  | single value => encode value
  | bool value => encode value
  | text value => encode value
  | sized value => Encode.sized value
  | words value => Encode.words value
  | raw value => value

/-- The length of a field can be written, if it is written at all. -/
def IsCountable : Field → Prop
  | text value => (Bytes.ofText value).length < UInt32.size
  | sized value => value.length < UInt32.size
  | words value => value.length < UInt32.size
  | _ => True

instance : DecidablePred IsCountable
  | text _ | sized _ | words _ => inferInstanceAs (Decidable (_ < _))
  | u8 _ | u32 _ | u64 _ | i32 _ | single _ | bool _ | raw _ => inferInstanceAs (Decidable True)

end Field

/-- The decoder of the fields of a type. -/
def FieldType.decoder : FieldType → Decoder Field
  | u8 => do return .u8 (← Decoder.u8)
  | u32 => do return .u32 (← Decoder.u32)
  | u64 => do return .u64 (← Decoder.u64)
  | i32 => do return .i32 (← Decoder.i32)
  | single => do return .single (← Decoder.single)
  | bool => do return .bool (← Decoder.bool)
  | text => do return .text (← Decoder.text)
  | sized => do return .sized (← Decoder.sized)
  | words => do return .words (← Decoder.words)
  | raw length => do return .raw (← Decoder.take length)

/-! ## Reading what was written -/

namespace Decoder

/-- Fields of the given types, one behind the other. -/
def row : List FieldType → Decoder (List Field)
  | [] => return []
  | type :: types => do
      let field ← type.decoder
      let fields ← row types
      return field :: fields

/-- A field is read by the decoder of its type. -/
theorem reads_field {f : Field} (h : f.IsCountable) : f.type.decoder.Reads f.bytes f := by
  cases f with
  | u8 value => exact (reads_u8 value).bind_pure
  | u32 value => exact (reads_u32 value).bind_pure
  | u64 value => exact (reads_u64 value).bind_pure
  | i32 value => exact (reads_i32 value).bind_pure
  | single value => exact (reads_single value).bind_pure
  | bool value => exact (reads_bool value).bind_pure
  | text value => exact (reads_text h).bind_pure
  | sized value => exact (reads_sized h).bind_pure
  | words value => exact (reads_words h).bind_pure
  | raw value => exact (reads_take rfl).bind_pure

theorem reads_row {fields : List Field} (h : ∀ f ∈ fields, f.IsCountable) :
    (row (fields.map Field.type)).Reads (fields.flatMap Field.bytes) fields := by
  induction fields with
  | nil => exact Reads.pure []
  | cons f rest ih =>
    obtain ⟨hf, hrest⟩ := List.forall_mem_cons.1 h
    exact (reads_field hf).bind ((ih hrest).bind_pure (f := (f :: ·)))

/-- Fields whose lengths can be written are read back in their order, from wherever they stand and
whatever follows them, and the cursor stops behind the last one. -/
theorem row_fields (fields : List Field) (h : ∀ f ∈ fields, f.IsCountable) (position : Nat)
    (suffix : Bytes) :
    row (fields.map Field.type) ⟨position, fields.flatMap Field.bytes ++ suffix⟩ =
      (.ok fields, ⟨position + (fields.flatMap Field.bytes).length, suffix⟩) :=
  reads_row h position suffix

/-- A row with lengths of zero and with raw bytes behind a text, and bytes behind it. -/
theorem row_fields_mixed :
    (∀ f ∈ [Field.bool true, .text "", .words [7, 8], .i32 (-1), .text "\xE9", .raw [0, 9]],
      f.IsCountable) ∧
    row [.bool, .text, .words, .i32, .text, .raw 2]
        ⟨3, [1, 0, 0, 0, 0, 2, 0, 0, 0, 7, 0, 0, 0, 8, 0, 0, 0, 255, 255, 255, 255,
          2, 0, 0, 0, 0xC3, 0xA9, 0, 9, 5]⟩ =
      (.ok [.bool true, .text "", .words [7, 8], .i32 (-1), .text "\xE9", .raw [0, 9]],
        ⟨32, [5]⟩) := by
  have hcountable : ∀ f ∈ [Field.bool true, .text "", .words [7, 8], .i32 (-1), .text "\xE9",
      .raw [0, 9]], f.IsCountable := by decide
  exact ⟨hcountable, row_fields _ hcountable 3 [5]⟩

/-! ## Reading what was not written -/

/-- The bytes that are taken for a field of a type are those of a field of this type. -/
theorem follows_field (type : FieldType) :
    type.decoder.Follows fun bytes f => bytes = f.bytes ∧ f.type = type := by
  cases type with
  | u8 => exact follows_u8.bind_pure fun _ _ h => ⟨h, rfl⟩
  | u32 => exact follows_u32.bind_pure fun _ _ h => ⟨h, rfl⟩
  | u64 => exact follows_u64.bind_pure fun _ _ h => ⟨h, rfl⟩
  | i32 => exact follows_i32.bind_pure fun _ _ h => ⟨h, rfl⟩
  | single => exact follows_single.bind_pure fun _ _ h => ⟨h, rfl⟩
  | bool => exact follows_bool.bind_pure fun _ _ h => ⟨h, rfl⟩
  | text => exact follows_text.bind_pure fun _ _ h => ⟨h.1, rfl⟩
  | sized => exact follows_sized.bind_pure fun _ _ h => ⟨h.1, rfl⟩
  | words => exact follows_words.bind_pure fun _ _ h => ⟨h.1, rfl⟩
  | raw length =>
    refine (follows_take length).bind_pure ?_
    rintro _ bytes ⟨rfl, rfl⟩
    exact ⟨rfl, rfl⟩

theorem advances_field (type : FieldType) : type.decoder.Advances := by
  cases type with
  | u8 => exact advances_u8.bind fun _ => advances_pure _
  | u32 => exact advances_u32.bind fun _ => advances_pure _
  | u64 => exact advances_u64.bind fun _ => advances_pure _
  | i32 => exact (advances_u32.bind fun _ => advances_pure _).bind fun _ => advances_pure _
  | single => exact (advances_u32.bind fun _ => advances_pure _).bind fun _ => advances_pure _
  | bool => exact advances_bool.bind fun _ => advances_pure _
  | text => exact advances_text.bind fun _ => advances_pure _
  | sized => exact advances_sized.bind fun _ => advances_pure _
  | words => exact advances_words.bind fun _ => advances_pure _
  | raw length => exact (advances_take length).bind fun _ => advances_pure _

theorem exists_many_u32 {n : Nat} {c : Cursor} (h : 4 * n ≤ c.remaining) :
    ∃ ws c', many u32 n c = (.ok ws, c') ∧ ws.length = n := by
  induction n generalizing c with
  | zero => exact ⟨[], c, rfl, rfl⟩
  | succ n ih =>
    have hfour : 4 ≤ c.remaining := by omega
    have hword : u32 c = (.ok (UInt32.ofNat (Bytes.toNat (c.rest.take 4))), c.advance 4) :=
      bind_ok (by rw [take, if_pos hfour])
    have hleft : (c.advance 4).remaining = c.remaining - 4 := List.length_drop
    obtain ⟨ws, c', hws, hlength⟩ := ih (c := c.advance 4) (by omega)
    refine ⟨_ :: ws, c', (bind_ok hword).trans (bind_ok hws), ?_⟩
    rw [List.length_cons, hlength]

/-- A count of words that is accepted leaves room for the words. -/
theorem exists_words {n : Nat} {c c' : Cursor} (h : count 4 c = (.ok n, c')) :
    ∃ ws c'', words c = (.ok ws, c'') ∧ ws.length = n := by
  have hroom : 4 * n ≤ c'.remaining := by
    obtain ⟨w, middle, -, h⟩ := bind_eq_ok_iff.1 h
    obtain ⟨left, middle', hleft, h⟩ := bind_eq_ok_iff.1 h
    cases hleft
    split at h
    · cases h
    · rename_i hroom
      cases h
      omega
  obtain ⟨ws, c'', hws, hlength⟩ := exists_many_u32 hroom
  exact ⟨ws, c'', (bind_ok h).trans hws, hlength⟩

end Decoder

/-! ## Calls in a row -/

/-- What a reader can be asked for: a field of a type, or a count of elements that take at least
so many bytes each. -/
inductive Call where
  | field (type : FieldType)
  | count (least : Nat)
  deriving DecidableEq, Repr

/-- What a reader answers. -/
inductive Reply where
  | field (value : Field)
  | count (n : Nat)
  deriving DecidableEq, Repr

/-- The bytes that a reply is written as. -/
def Reply.bytes : Reply → Bytes
  | field value => value.bytes
  | count n => Encode.count n

/-- A call that was made: where the cursor stood before it and after it, and what came of it. -/
structure Visit where
  call : Call
  before : Cursor
  result : Except DecodeError Reply
  after : Cursor

namespace Call

/-- The reply is of the type that was asked for. -/
def Fits : Call → Reply → Prop
  | field type, .field value => value.type = type
  | count _, .count _ => True
  | _, _ => False

/-- The decoder that a call runs. -/
def decoder : Call → Decoder Reply
  | field type => do return .field (← type.decoder)
  | count least => do return .count (← Decoder.count least)

/-- A call with the cursor at some place. -/
def visit (call : Call) (c : Cursor) : Visit := ⟨call, c, (call.decoder c).1, (call.decoder c).2⟩

end Call

/-- What happens in a row of calls. Each one goes on where the one before it has left the cursor,
also if that one has failed. -/
def visits : List Call → Cursor → List Visit
  | [], _ => []
  | call :: calls, c => call.visit c :: visits calls (call.visit c).after

namespace Call

open Decoder

theorem advances_decoder (call : Call) : call.decoder.Advances := by
  cases call with
  | field type => exact (advances_field type).bind fun _ => advances_pure _
  | count least => exact (advances_count least).bind fun _ => advances_pure _

theorem follows_decoder (call : Call) :
    call.decoder.Follows fun bytes reply => bytes = reply.bytes ∧ call.Fits reply := by
  cases call with
  | field type => exact (follows_field type).bind_pure fun _ _ h => ⟨h.1, h.2⟩
  | count least => exact (follows_count least).bind_pure fun _ _ h => ⟨h.1, trivial⟩

end Call

/-- In a byte string, the call moved the cursor forward if at all. If it succeeded then what it
passed is what the reply is written as, and for words it succeeds if their count is accepted. -/
structure Visit.IsSound (v : Visit) (bytes : Bytes) : Prop where
  forward : v.before.position ≤ v.after.position
  within : v.after.position ≤ bytes.length
  canonical : ∀ reply, v.result = .ok reply → v.call.Fits reply ∧
    bytes.slice v.before.position (v.after.position - v.before.position) = reply.bytes
  words : ∀ n c, v.call = .field .words → Decoder.count 4 v.before = (.ok n, c) →
    ∃ ws, v.result = .ok (.field (.words ws)) ∧ ws.length = n

/-- One call in a byte string is sound and stays in it. -/
theorem Call.isSound_visit (call : Call) {c : Cursor} {bytes : Bytes} (h : c.In bytes) :
    (call.visit c).after.In bytes ∧ (call.visit c).IsSound bytes := by
  obtain ⟨taken, htaken⟩ := call.advances_decoder c
  obtain ⟨hin, hat⟩ := htaken.slice h
  have hposition : (call.visit c).after.position = c.position + taken.length := htaken.position
  refine ⟨hin, ⟨?_, hin.1, ?_, ?_⟩⟩
  · rw [hposition]
    exact Nat.le_add_right _ _
  · intro reply hreply
    obtain ⟨first, hfirst, rfl, hfits⟩ :=
      call.follows_decoder c (call.visit c).after reply (Prod.ext hreply rfl)
    -- what was passed and what was taken for the reply stand before the same rest
    obtain rfl : taken = reply.bytes := List.append_cancel_right (htaken.rest.symm.trans hfirst)
    have hpassed : (call.visit c).after.position - c.position = reply.bytes.length := by
      rw [hposition, Nat.add_sub_cancel_left]
    refine ⟨hfits, ?_⟩
    change bytes.slice c.position ((call.visit c).after.position - c.position) = reply.bytes
    rw [hpassed, hat.slice]
  · rintro n c' hcall hcount
    obtain rfl : call = .field .words := hcall
    obtain ⟨ws, c'', hws, hlength⟩ := Decoder.exists_words hcount
    have hfield : FieldType.decoder .words c = (.ok (.words ws), c'') := Decoder.bind_ok hws
    have hdecoder : Call.decoder (.field .words) c = (.ok (.field (.words ws)), c'') :=
      Decoder.bind_ok hfield
    exact ⟨ws, congrArg Prod.fst hdecoder, hlength⟩

theorem visits_spec (calls : List Call) {c : Cursor} {bytes : Bytes} (h : c.In bytes) :
    ((visits calls c).Pairwise fun v w => v.after.position ≤ w.before.position) ∧
      ∀ v ∈ visits calls c, c.position ≤ v.before.position ∧ v.IsSound bytes := by
  induction calls generalizing c with
  | nil => exact ⟨.nil, fun v hv => by cases hv⟩
  | cons call calls ih =>
    obtain ⟨hin, hsound⟩ := call.isSound_visit h
    obtain ⟨hpairwise, hall⟩ := ih hin
    have hforward : c.position ≤ (call.visit c).after.position := hsound.forward
    refine ⟨List.pairwise_cons.2 ⟨fun w hw => (hall w hw).1, hpairwise⟩, ?_⟩
    refine List.forall_mem_cons.2 ⟨⟨Nat.le_refl _, hsound⟩, fun v hv => ?_⟩
    exact ⟨Nat.le_trans hforward (hall v hv).1, (hall v hv).2⟩

/-- On any bytes, in any row of calls, the cursor never goes back and never leaves the bytes, and
every call is sound, whatever failed before it. So the whole of two different byte strings is never
read as the same field. -/
theorem visits_canonical (bytes : Bytes) (calls : List Call) :
    ((visits calls (.start bytes)).Pairwise fun v w => v.after.position ≤ w.before.position) ∧
      (∀ v ∈ visits calls (.start bytes), v.IsSound bytes) ∧
      ∀ (type : FieldType) (a b : Bytes) (field : Field),
        type.decoder (.start a) = (.ok field, ⟨a.length, []⟩) →
        type.decoder (.start b) = (.ok field, ⟨b.length, []⟩) → a = b := by
  obtain ⟨hpairwise, hall⟩ := visits_spec calls (Cursor.start_in bytes)
  refine ⟨hpairwise, fun v hv => (hall v hv).2, fun type a b field ha hb => ?_⟩
  -- either of them is what the field is written as
  have hwhole {whole : Bytes} (h : type.decoder (.start whole) = (.ok field, ⟨whole.length, []⟩)) :
      whole = field.bytes := by
    obtain ⟨taken, hrest, rfl, -⟩ := Decoder.follows_field type _ _ _ h
    exact hrest.trans (List.append_nil _)
  rw [hwhole ha, hwhole hb]

/-- What is refused has been passed all the same: a boolean, and a count of words. -/
example : (visits [.field .bool, .field .words, .field .bool] (.start [2, 9, 0, 0, 0, 1])).map
    (fun v => (v.after.position, v.result.toBool)) = [(1, false), (5, false), (6, true)] := by
  decide

end PipelineArchive
