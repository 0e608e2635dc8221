import PipelineArchive.Proofs.Decoding
import PipelineArchive.Proofs.Parts

/-!
# Decoders take what is next

A decoder takes bytes from the front of those that are left and never looks elsewhere. So it
stays in the byte string that it started in, however the bytes are made up
(`Cursor.Passes.slice`), also where it fails (`Advances`). Where it succeeds it gives the same
value when more bytes follow (`Forward`), and the bytes that it takes for the value are those that
the value is encoded as (`Follows`), which is the converse of `Reads`.
-/

set_option autoImplicit false

namespace PipelineArchive

/-! ## Cursors -/

namespace Cursor

/-- Between two cursors some bytes were taken. -/
structure Passes (c : Cursor) (taken : Bytes) (c' : Cursor) : Prop where
  rest : c.rest = taken ++ c'.rest
  position : c'.position = c.position + taken.length

theorem Passes.refl (c : Cursor) : c.Passes [] c := ⟨rfl, rfl⟩

theorem Passes.trans {c c' c'' : Cursor} {first second : Bytes} (h : c.Passes first c')
    (h' : c'.Passes second c'') : c.Passes (first ++ second) c'' where
  rest := by rw [h.rest, h'.rest, List.append_assoc]
  position := by rw [h'.position, h.position, List.length_append, Nat.add_assoc]

/-- The cursor stands in a byte string, with what follows it there. -/
def In (c : Cursor) (bytes : Bytes) : Prop :=
  c.position ≤ bytes.length ∧ c.rest = bytes.drop c.position

theorem start_in (bytes : Bytes) : (Cursor.start bytes).In bytes := ⟨Nat.zero_le _, rfl⟩

/-- What is taken from a byte string is the part of it between the two cursors. -/
theorem Passes.slice {c c' : Cursor} {taken bytes : Bytes} (h : c.Passes taken c')
    (hc : c.In bytes) : c'.In bytes ∧ bytes.HasAt c.position taken := by
  have hbytes : bytes = bytes.take c.position ++ taken ++ c'.rest := by
    rw [List.append_assoc, ← h.rest, hc.2, List.take_append_drop]
  have hat : bytes.HasAt c.position taken := ⟨_, _, hbytes, List.length_take_of_le hc.1⟩
  refine ⟨⟨by rw [h.position]; exact hat.le_length, ?_⟩, hat⟩
  rw [h.position, ← List.drop_drop, ← hc.2, h.rest, List.drop_left]

/-- The cursor with more bytes at the end. -/
def append (c : Cursor) (more : Bytes) : Cursor := ⟨c.position, c.rest ++ more⟩

theorem start_append (bytes more : Bytes) :
    (Cursor.start bytes).append more = .start (bytes ++ more) := rfl

end Cursor

/-! ## Decoders -/

namespace Decoder

variable {α β : Type}

theorem bind_eq_ok_iff {d : Decoder α} {next : α → Decoder β} {c c'' : Cursor} {y : β} :
    (d >>= next) c = (.ok y, c'') ↔
      ∃ x c', d c = (.ok x, c') ∧ next x c' = (.ok y, c'') := by
  show Decoder.bind d next c = _ ↔ _
  rw [Decoder.bind]
  rcases d c with ⟨e | x, c'⟩
  · simp
  · constructor
    · exact fun h => ⟨x, c', rfl, h⟩
    · rintro ⟨_, _, ⟨⟩, h⟩
      exact h

/-- A decoder that succeeds takes bytes from the front, and does the same where more follow. -/
structure Forward (d : Decoder α) : Prop where
  passes {c c' : Cursor} {value : α} : d c = (.ok value, c') → ∃ taken, c.Passes taken c'
  appends {c c' : Cursor} {value : α} :
    d c = (.ok value, c') → ∀ more, d (c.append more) = (.ok value, c'.append more)

theorem forward_pure (value : α) : (Pure.pure value : Decoder α).Forward where
  passes h := by
    cases h
    exact ⟨[], Cursor.Passes.refl _⟩
  appends h more := by
    cases h
    rfl

theorem Forward.bind {d : Decoder α} {next : α → Decoder β} (hd : d.Forward)
    (hnext : ∀ x, (next x).Forward) : (d >>= next).Forward where
  passes h := by
    obtain ⟨x, c', hx, hy⟩ := bind_eq_ok_iff.1 h
    obtain ⟨first, hfirst⟩ := hd.passes hx
    obtain ⟨second, hsecond⟩ := (hnext x).passes hy
    exact ⟨first ++ second, hfirst.trans hsecond⟩
  appends h more := by
    obtain ⟨x, c', hx, hy⟩ := bind_eq_ok_iff.1 h
    exact bind_eq_ok_iff.2 ⟨x, _, hd.appends hx more, (hnext x).appends hy more⟩

/-- A decoder that fails is never asked what it has taken. -/
theorem forward_error (e : DecodeError) :
    Forward (fun c => (.error e, c) : Decoder α) where
  passes h := by cases h
  appends h := by cases h

theorem forward_take (count : Nat) : (take count).Forward where
  passes {c c' value} h := by
    unfold take at h
    split at h
    · rename_i hroom
      cases h
      exact ⟨c.rest.take count, (List.take_append_drop count c.rest).symm, by
        rw [List.length_take_of_le hroom]
        rfl⟩
    · cases h
  appends {c c' value} h more := by
    unfold take at h
    split at h
    · rename_i hroom
      cases h
      have hlonger : count ≤ (c.append more).remaining := by
        rw [Cursor.append, Cursor.remaining, List.length_append]
        exact Nat.le_trans hroom (Nat.le_add_right _ _)
      rw [take, if_pos hlonger]
      simp only [Cursor.append, Cursor.advance, List.take_append_of_le_length hroom,
        List.drop_append_of_le_length hroom]
    · cases h

theorem forward_u32 : u32.Forward := (forward_take 4).bind fun _ => forward_pure _

theorem forward_u64 : u64.Forward := (forward_take 8).bind fun _ => forward_pure _

theorem forward_position : position.Forward where
  passes h := by
    cases h
    exact ⟨[], Cursor.Passes.refl _⟩
  appends h more := by
    cases h
    rfl

/-- A count that fits into the bytes left fits when there are more. -/
theorem forward_count (least : Nat) : (count least).Forward where
  passes h := by
    obtain ⟨n, middle, hn, h⟩ := bind_eq_ok_iff.1 h
    obtain ⟨left, middle', hleft, h⟩ := bind_eq_ok_iff.1 h
    cases hleft
    split at h
    · cases h
    · cases h
      exact forward_u32.passes hn
  appends h more := by
    obtain ⟨n, middle, hn, h⟩ := bind_eq_ok_iff.1 h
    obtain ⟨left, middle', hleft, h⟩ := bind_eq_ok_iff.1 h
    cases hleft
    refine bind_eq_ok_iff.2 ⟨n, _, forward_u32.appends hn more, ?_⟩
    refine bind_eq_ok_iff.2 ⟨_, _, rfl, ?_⟩
    split at h
    · cases h
    · rename_i hroom
      cases h
      rw [if_neg]
      · rfl
      · rintro ⟨hleast, hless⟩
        refine hroom ⟨hleast, Nat.lt_of_le_of_lt ?_ hless⟩
        rw [Cursor.append, Cursor.remaining, Cursor.remaining, List.length_append]
        exact Nat.le_add_right _ _

theorem forward_sized : sized.Forward := forward_u32.bind fun _ => forward_take _

theorem forward_text : text.Forward := by
  refine forward_position.bind fun start => forward_sized.bind fun bytes => ?_
  cases Utf8.decode? bytes with
  | error e => exact forward_error _
  | ok s => exact forward_pure s

theorem forward_many {d : Decoder α} (hd : d.Forward) (n : Nat) : (many d n).Forward := by
  induction n with
  | zero => exact forward_pure []
  | succ n ih => exact hd.bind fun _ => ih.bind fun _ => forward_pure _

theorem forward_words : words.Forward := (forward_count 4).bind fun n => forward_many forward_u32 n

/-! ## Decoders that may fail -/

/-- Whatever comes of it, the decoder takes bytes from the front. -/
def Advances (d : Decoder α) : Prop := ∀ c : Cursor, ∃ taken, c.Passes taken (d c).2

theorem advances_of_stays {d : Decoder α} (h : ∀ c, (d c).2 = c) : d.Advances := fun c => by
  rw [h c]
  exact ⟨[], Cursor.Passes.refl c⟩

theorem advances_pure (value : α) : (Pure.pure value : Decoder α).Advances :=
  advances_of_stays fun _ => rfl

theorem Advances.bind {d : Decoder α} {next : α → Decoder β} (hd : d.Advances)
    (hnext : ∀ x, (next x).Advances) : (d >>= next).Advances := by
  intro c
  obtain ⟨first, hfirst⟩ := hd c
  show ∃ taken, c.Passes taken (Decoder.bind d next c).2
  rw [Decoder.bind]
  rcases hresult : d c with ⟨e | x, c'⟩
  · rw [hresult] at hfirst
    exact ⟨first, hfirst⟩
  · rw [hresult] at hfirst
    obtain ⟨second, hsecond⟩ := hnext x c'
    exact ⟨first ++ second, hfirst.trans hsecond⟩

theorem advances_take (count : Nat) : (take count).Advances := by
  intro c
  unfold take
  split
  · rename_i hroom
    refine ⟨c.rest.take count, (List.take_append_drop count c.rest).symm, ?_⟩
    rw [List.length_take_of_le hroom]
    rfl
  · exact ⟨[], Cursor.Passes.refl c⟩

theorem advances_u8 : u8.Advances := (advances_take 1).bind fun _ => advances_pure _

theorem advances_u32 : u32.Advances := (advances_take 4).bind fun _ => advances_pure _

theorem advances_u64 : u64.Advances := (advances_take 8).bind fun _ => advances_pure _

theorem advances_bool : bool.Advances := by
  refine advances_u8.bind fun value => ?_
  split
  · exact advances_pure false
  · split
    · exact advances_pure true
    · exact advances_of_stays fun _ => rfl

theorem advances_count (least : Nat) : (count least).Advances := by
  refine advances_u32.bind fun n => (advances_of_stays fun _ => rfl).bind fun left => ?_
  split
  · exact advances_of_stays fun _ => rfl
  · exact advances_pure _

theorem advances_sized : sized.Advances := advances_u32.bind fun _ => advances_take _

theorem advances_text : text.Advances := by
  refine (advances_of_stays fun _ => rfl).bind fun start => advances_sized.bind fun bytes => ?_
  split
  · exact advances_pure _
  · exact advances_of_stays fun _ => rfl

theorem advances_many {d : Decoder α} (hd : d.Advances) (n : Nat) : (many d n).Advances := by
  induction n with
  | zero => exact advances_pure []
  | succ n ih => exact hd.bind fun _ => ih.bind fun _ => advances_pure _

theorem advances_words : words.Advances :=
  (advances_count 4).bind fun n => advances_many advances_u32 n

end Decoder

/-! ## What is taken for a value -/

namespace Decoder

variable {α β : Type}

/-- The bytes that the decoder takes for a value are of a format. -/
def Follows (d : Decoder α) (format : Bytes → α → Prop) : Prop :=
  ∀ c c' x, d c = (.ok x, c') → ∃ taken, c.rest = taken ++ c'.rest ∧ format taken x

theorem follows_pure {value : α} {format : Bytes → α → Prop} (h : format [] value) :
    (Pure.pure value : Decoder α).Follows format := by
  rintro c _ _ ⟨⟩
  exact ⟨[], rfl, h⟩

/-- What two decoders take stands one behind the other. -/
theorem Follows.bind {d : Decoder α} {next : α → Decoder β} {part : Bytes → α → Prop}
    {whole : Bytes → β → Prop} (hd : d.Follows part)
    (hnext : ∀ first x, part first x → (next x).Follows fun second => whole (first ++ second)) :
    (d >>= next).Follows whole := by
  intro c c'' y h
  obtain ⟨x, c', hx, hy⟩ := bind_eq_ok_iff.1 h
  obtain ⟨first, hfirst, hpart⟩ := hd c c' x hx
  obtain ⟨second, hsecond, hwhole⟩ := hnext first x hpart c' c'' y hy
  exact ⟨first ++ second, by rw [hfirst, hsecond, List.append_assoc], hwhole⟩

/-- A decoder whose value is passed on through a function. -/
theorem Follows.bind_pure {d : Decoder α} {f : α → β} {part : Bytes → α → Prop}
    {whole : Bytes → β → Prop} (hd : d.Follows part)
    (hwhole : ∀ bytes x, part bytes x → whole bytes (f x)) :
    (d >>= fun value => Pure.pure (f value)).Follows whole :=
  hd.bind fun first x hx => follows_pure (by rw [List.append_nil]; exact hwhole first x hx)

theorem follows_take (count : Nat) :
    (take count).Follows fun bytes x => x = bytes ∧ bytes.length = count := by
  intro c c' x h
  unfold take at h
  split at h
  · rename_i hroom
    cases h
    exact ⟨c.rest.take count, (List.take_append_drop count c.rest).symm, rfl,
      List.length_take_of_le hroom⟩
  · cases h

theorem follows_u8 : u8.Follows fun bytes b => bytes = encode b := by
  refine (follows_take 1).bind_pure ?_
  rintro _ bytes ⟨rfl, hlength⟩
  obtain ⟨b, rfl⟩ := List.length_eq_one_iff.1 hlength
  rw [Bytes.toNat, Bytes.toNat, Nat.mul_zero, Nat.add_zero, UInt8.ofNat_toNat]
  rfl

theorem follows_u32 : u32.Follows fun bytes w => bytes = Bytes.ofU32 w := by
  refine (follows_take 4).bind ?_
  rintro _ bytes ⟨rfl, hlength⟩
  apply follows_pure
  rw [List.append_nil, Bytes.ofU32_toNat hlength]

theorem follows_u64 : u64.Follows fun bytes w => bytes = Bytes.ofU64 w := by
  refine (follows_take 8).bind ?_
  rintro _ bytes ⟨rfl, hlength⟩
  apply follows_pure
  have hlt := Bytes.toNat_lt_capacity bytes
  rw [hlength] at hlt
  rw [List.append_nil, Bytes.ofU64, UInt64.toNat_ofNat_of_lt' hlt, ← hlength, Bytes.ofNat_toNat]

theorem follows_i32 : i32.Follows fun bytes n => bytes = encode n := by
  refine follows_u32.bind_pure ?_
  rintro _ w rfl
  exact congrArg Bytes.ofU32 (UInt32.toUInt32_toInt32 w).symm

theorem follows_single : single.Follows fun bytes x => bytes = encode x := by
  refine follows_u32.bind_pure ?_
  rintro _ w rfl
  rfl

theorem follows_bool : bool.Follows fun bytes b => bytes = encode b := by
  refine follows_u8.bind ?_
  rintro _ value rfl
  split
  · rename_i hvalue
    exact follows_pure (by rw [hvalue]; rfl)
  · split
    · rename_i hvalue
      exact follows_pure (by rw [hvalue]; rfl)
    · rintro _ _ _ ⟨⟩

/-- A word is the count of the number that it stands for. -/
theorem count_toNat (w : UInt32) : Encode.count w.toNat = Bytes.ofU32 w := by
  have hword : UInt32.ofNat (min w.toNat maxCount) = w :=
    UInt32.toNat_inj.1 (toNat_count w.toNat_lt)
  rw [Encode.count, hword]

theorem follows_count (least : Nat) :
    (count least).Follows fun bytes n => bytes = Encode.count n ∧ n < UInt32.size := by
  refine follows_u32.bind ?_
  rintro _ w rfl c c' n h
  obtain ⟨_, _, hremaining, h⟩ := bind_eq_ok_iff.1 h
  cases hremaining
  split at h
  · cases h
  · cases h
    exact ⟨[], rfl, by rw [List.append_nil, count_toNat], w.toNat_lt⟩

theorem follows_sized :
    sized.Follows fun bytes x => bytes = Encode.sized x ∧ x.length < UInt32.size := by
  refine follows_u32.bind ?_
  rintro _ w rfl c c' bytes h
  obtain ⟨_, hrest, rfl, hlength⟩ := follows_take _ c c' bytes h
  have hlt : bytes.length < UInt32.size := hlength ▸ w.toNat_lt
  exact ⟨bytes, hrest, by rw [Encode.sized, hlength, count_toNat], hlt⟩

/-- A text is read from its own bytes. -/
theorem follows_text :
    text.Follows fun bytes s => bytes = Encode.text s ∧ (Bytes.ofText s).length < UInt32.size := by
  have hposition : position.Follows fun bytes _ => bytes = [] := by
    rintro c _ _ ⟨⟩
    exact ⟨[], rfl, rfl⟩
  refine hposition.bind ?_
  rintro _ start rfl
  refine follows_sized.bind ?_
  rintro _ bytes ⟨rfl, hlength⟩ c c' s h
  cases hdecode : Utf8.decode? bytes with
  | error e =>
    rw [hdecode] at h
    cases h
  | ok found =>
    rw [hdecode] at h
    cases h
    rw [← Utf8.ofText_of_decode? hdecode] at hlength ⊢
    exact ⟨[], rfl, List.append_nil _, hlength⟩

theorem follows_many_u32 (n : Nat) :
    (many u32 n).Follows fun bytes ws => bytes = Bytes.ofWords ws ∧ ws.length = n := by
  induction n with
  | zero => exact follows_pure ⟨rfl, rfl⟩
  | succ n ih =>
    refine follows_u32.bind ?_
    rintro _ w rfl
    refine ih.bind ?_
    rintro _ ws ⟨rfl, rfl⟩
    apply follows_pure
    exact ⟨by rw [List.append_nil]; rfl, rfl⟩

theorem follows_words :
    words.Follows fun bytes ws => bytes = Encode.words ws ∧ ws.length < UInt32.size := by
  refine (follows_count 4).bind ?_
  rintro _ n ⟨rfl, hn⟩ c c' ws h
  obtain ⟨_, hrest, rfl, rfl⟩ := follows_many_u32 n c c' ws h
  exact ⟨_, hrest, rfl, hn⟩

end Decoder

end PipelineArchive
