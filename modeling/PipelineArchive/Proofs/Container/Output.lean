import PipelineArchive.Stream
import PipelineArchive.Proofs.Container.ReadBack

/-!
# Sizes and output

An archive is measured before it is written, and both work out the same layout on their own:
`build_predicted` says that they always agree. An archive can therefore only be refused for its
size, and the bytes that it is made of are as many as was said of it.

A `Sink` is a stream that keeps what it says: a piece that is written without an error is behind
what was taken before. Whatever the sink is, an archive that is written to it leaves exactly its
bytes there (`Image.taken_writeTo`).
-/

set_option autoImplicit false

namespace PipelineArchive

/-! ## Streams -/

/-- What an action on a stream gives from some state of the stream. -/
def outcome {ω α : Type} (action : ExceptT String (StateM ω) α) (s : ω) : Except String α × ω :=
  action.run.run s

/-- One action after another gives a value exactly if both do. -/
theorem outcome_bind_eq_ok_iff {ω α β : Type} {first : ExceptT String (StateM ω) α}
    {rest : α → ExceptT String (StateM ω) β} {value : β} {s s' : ω} :
    outcome (first >>= rest) s = (.ok value, s') ↔
      ∃ x middle, outcome first s = (.ok x, middle) ∧
        outcome (rest x) middle = (.ok value, s') := by
  have hbind : outcome (first >>= rest) s =
      match outcome first s with
      | (.ok x, middle) => outcome (rest x) middle
      | (.error e, middle) => (.error e, middle) := by
    show (ExceptT.bindCont rest (outcome first s).1).run (outcome first s).2 = _
    rcases outcome first s with ⟨_ | _, _⟩ <;> rfl
  rw [hbind]
  rcases outcome first s with ⟨e | x, middle⟩
  · simp
  · constructor
    · exact fun h => ⟨x, middle, rfl, h⟩
    · rintro ⟨_, _, hfirst, h⟩
      cases hfirst
      exact h

/-- A stream with a state of some type. Writing and flushing may fail; a piece that is written
without an error is behind what was taken before, and flushing takes nothing. -/
structure Sink (ω : Type) where
  taken : ω → Bytes
  write (piece : Bytes) : ExceptT String (StateM ω) Unit
  flush : ExceptT String (StateM ω) Unit
  taken_write {piece : Bytes} {s s' : ω} :
    outcome (write piece) s = (.ok (), s') → taken s' = taken s ++ piece
  taken_flush {s s' : ω} : outcome flush s = (.ok (), s') → taken s' = taken s

namespace Sink

variable {ω : Type} {sink : Sink ω}

/-- The stream takes everything. -/
structure Willing (sink : Sink ω) : Prop where
  write (piece : Bytes) (s : ω) : ∃ s', outcome (sink.write piece) s = (.ok (), s')
  flush (s : ω) : ∃ s', outcome sink.flush s = (.ok (), s')

/-- The pieces that were written are behind what was taken before, in their order. -/
theorem taken_forM {pieces : List Bytes} {s s' : ω}
    (h : outcome (pieces.forM sink.write) s = (.ok (), s')) :
    sink.taken s' = sink.taken s ++ pieces.flatten := by
  induction pieces generalizing s with
  | nil =>
    cases h
    rw [List.flatten_nil, List.append_nil]
  | cons piece rest ih =>
    obtain ⟨⟨⟩, middle, hpiece, hrest⟩ := outcome_bind_eq_ok_iff.1 h
    rw [ih hrest, sink.taken_write hpiece, List.append_assoc, List.flatten_cons]

theorem Willing.exists_forM (h : sink.Willing) (pieces : List Bytes) (s : ω) :
    ∃ s', outcome (pieces.forM sink.write) s = (.ok (), s') := by
  induction pieces generalizing s with
  | nil => exact ⟨s, rfl⟩
  | cons piece rest ih =>
    obtain ⟨middle, hpiece⟩ := h.write piece s
    obtain ⟨s', hrest⟩ := ih middle
    exact ⟨s', outcome_bind_eq_ok_iff.2 ⟨(), middle, hpiece, hrest⟩⟩

end Sink

section

variable {ω : Type} {sink : Sink ω} {image : Image}

/-- An archive that was written to a stream is behind what was taken before, and it is told how
many bytes are said of it. -/
theorem Image.taken_writeTo {n : Nat} {s s' : ω}
    (h : outcome (image.writeTo sink.write sink.flush) s = (.ok n, s')) :
    n = image.size ∧ sink.taken s' = sink.taken s ++ image.bytes := by
  obtain ⟨⟨⟩, written, hpieces, h⟩ := outcome_bind_eq_ok_iff.1 h
  obtain ⟨⟨⟩, flushed, hflush, h⟩ := outcome_bind_eq_ok_iff.1 h
  cases h
  exact ⟨rfl, by rw [sink.taken_flush hflush, sink.taken_forM hpieces, image.bytes_eq]⟩

/-- An archive is written to a stream that takes everything. -/
theorem Image.exists_writeTo (h : sink.Willing) (s : ω) :
    ∃ s', outcome (image.writeTo sink.write sink.flush) s = (.ok image.size, s') := by
  obtain ⟨written, hpieces⟩ := h.exists_forM image.pieces s
  obtain ⟨flushed, hflush⟩ := h.flush written
  exact ⟨flushed, outcome_bind_eq_ok_iff.2 ⟨(), written, hpieces,
    outcome_bind_eq_ok_iff.2 ⟨(), flushed, hflush, rfl⟩⟩⟩

end

/-- A stream of limited size is a sink that holds nothing back. -/
def BoundedStream.sink : Sink BoundedStream where
  taken := BoundedStream.taken
  write piece := BoundedStream.write piece
  flush := pure ()
  taken_write {piece s s'} h := by
    simp only [outcome, ExceptT.run, StateT.run, BoundedStream.write] at h
    obtain ⟨hok, rfl⟩ := Prod.mk.inj h
    split at hok
    · rename_i hroom
      rw [List.take_of_length_le hroom]
    · cases hok
  taken_flush h := by
    cases h
    rfl

namespace Container

open Results

/-! ## Predicted sizes -/

/-- What is predicted of some contents holds: the archive is refused exactly if it is predicted
to be larger than allowed, and for no other reason. Otherwise it is written, with as many bytes
as predicted; its pieces one behind the other are what a stream takes that it is written to. -/
theorem build_predicted {c : Contents} (hc : c.Linked) (builder : Option String) {limit : Nat}
    (hlimit : limit ≤ maxArchiveSize) :
    ∃ rs, records c = .ok rs ∧
      (∀ image, write c rs builder = .ok image →
        totalSize (image.pieces.map List.length) = measure c rs builder) ∧
      (∀ e, build c builder limit = .error e ↔
        limit < measure c rs builder ∧ e = .tooLarge (measure c rs builder)) ∧
      ∀ image, build c builder limit = .ok image →
        write c rs builder = .ok image ∧
        image.size = totalSize (image.pieces.map List.length) ∧
        image.bytes = image.pieces.flatten ∧
        image.bytes.length = image.size ∧
        ∀ {ω : Type} (sink : Sink ω) (s : ω),
          (∀ n s', outcome (image.writeTo sink.write sink.flush) s = (.ok n, s') →
            n = image.bytes.length ∧ sink.taken s' = sink.taken s ++ image.bytes) ∧
          (sink.Willing → ∃ s', outcome (image.writeTo sink.write sink.flush) s =
            (.ok image.bytes.length, s')) := by
  obtain ⟨rs, hrs⟩ := exists_records hc
  refine ⟨rs, hrs, fun image hwrite => Layout.totalSize_pieces hwrite, ?_, ?_⟩
  · intro e
    rw [build_eq hrs]
    split
    · rename_i hlarge
      simp only [hlarge, true_and, Except.error.injEq]
      exact eq_comm
    · rename_i hsmall
      -- the writer succeeds, for every number that it writes is bounded by the predicted size
      have h32 : maxArchiveSize < UInt32.size := by decide
      obtain ⟨image, hwrite⟩ := exists_write c rs builder (by omega)
      rw [hwrite]
      exact iff_of_false (fun h => by cases h) fun h => hsmall h.1
  · intro image hbuild
    rw [build_eq hrs] at hbuild
    split at hbuild
    · cases hbuild
    · have hsize := Layout.size_of_write hbuild
      have hlength : image.bytes.length = image.size := by rw [length_imageBytes, hsize]
      refine ⟨hbuild, hsize, image.bytes_eq, hlength, ?_⟩
      intro ω sink s
      rw [hlength]
      exact ⟨fun n s' h => Image.taken_writeTo h, fun h => Image.exists_writeTo h s⟩

/-- The sample takes 544 bytes: it is refused where one less is allowed, and is written to a
stream that has just enough room. -/
theorem sample_predicted : sample.Linked ∧ 543 ≤ maxArchiveSize ∧ 544 ≤ maxArchiveSize ∧
    build sample (some "b") 543 = .error (.tooLarge 544) ∧
    ∃ image stream, build sample (some "b") 544 = .ok image ∧ image.size = 544 ∧
      outcome (image.writeTo BoundedStream.sink.write BoundedStream.sink.flush) ⟨[], 544⟩ =
        (.ok 544, stream) ∧
      stream.taken = image.bytes := by
  have hgrounded : sample.Grounded := Contents.grounded_empty.commit supports_sampleStaging
  have hsmall : 543 ≤ maxArchiveSize := by decide
  have hexact : 544 ≤ maxArchiveSize := by decide
  refine ⟨hgrounded.resolves.linked, hsmall, hexact, ?_⟩
  have hmeasure {rs : List Record} (hrs : records sample = .ok rs) :
      measure sample rs (some "b") = 544 := by
    have h : (records sample).map (fun rs => measure sample rs (some "b")) = .ok 544 := by
      decide +kernel
    rw [hrs] at h
    exact Except.ok.inj h
  obtain ⟨rs, hrs, -, hrefused, -⟩ := build_predicted hgrounded.resolves.linked (some "b") hsmall
  obtain ⟨rs', hrs', hpieces, -, hwritten⟩ :=
    build_predicted hgrounded.resolves.linked (some "b") hexact
  refine ⟨(hrefused _).2 ⟨by rw [hmeasure hrs]; decide, by rw [hmeasure hrs]⟩, ?_⟩
  -- that there is room for all of it is computed, and what the stream has then taken is not
  have hroom : ((build sample (some "b") 544).map fun image =>
      (outcome (image.writeTo BoundedStream.sink.write BoundedStream.sink.flush)
        ⟨[], 544⟩).1.isOk) = .ok true := by decide +kernel
  obtain ⟨image, himage, hok⟩ := map_eq_ok_iff.1 hroom
  obtain ⟨hwrite, hsize, -, hlength, hstreams⟩ := hwritten image himage
  have htotal : image.size = 544 := by rw [hsize, hpieces image hwrite, hmeasure hrs']
  obtain ⟨n, hn⟩ := exists_ok_of_isOk hok
  obtain ⟨rfl, htaken⟩ := (hstreams BoundedStream.sink ⟨[], 544⟩).1 n _ (Prod.ext hn rfl)
  rw [hlength, htotal] at hn
  exact ⟨image, _, himage, htotal, Prod.ext hn rfl, htaken⟩

end Container

end PipelineArchive
