import TaggedWire.Proofs.Cause

/-!
# Where a record ends

The first bytes of a record say where its payload lies and where the record ends. Reading it comes
to that end if all bytes are there. If not, it stops before the first part that is cut.
-/

namespace TaggedWire

variable {V : Type}

/-- What the first bytes of a record say. -/
structure Frame where
  /-- How many bytes stand before the payload. -/
  header : Nat
  /-- How many bytes the payload has. -/
  size : Nat
  deriving DecidableEq

namespace Frame

/-- Nothing is said as long as the size is not complete. -/
def of? : List UInt8 → Option Frame
  | [] => none
  | first :: rest =>
    if first = 254 then
      if rest.length < 3 then none else some ⟨4, LittleEndian.value (rest.take 3)⟩
    else some ⟨1, first.toNat⟩

/-- The bytes up to the padding. -/
def body (frame : Frame) : Nat :=
  frame.header + frame.size

/-- All bytes of the record, which are whole words. -/
def total (frame : Frame) : Nat :=
  (frame.body + 3) / 4 * 4

/-- The first part of a record that is not complete: where it starts, and how many bytes it has. -/
inductive Cut : (ahead : List UInt8) → (start needed : Nat) → Prop
  | first : Cut [] 0 1
  | size {rest : List UInt8} (short : rest.length < 3) : Cut (254 :: rest) 1 3
  | payload {ahead : List UInt8} {frame : Frame} (framed : of? ahead = some frame)
      (short : ahead.length < frame.body) : Cut ahead frame.header frame.size
  | padding {ahead : List UInt8} {frame : Frame} (framed : of? ahead = some frame)
      (fits : frame.body ≤ ahead.length) (short : ahead.length < frame.total) :
      Cut ahead frame.body (frame.total - frame.body)

theorem body_le_total (frame : Frame) : frame.body ≤ frame.total := by
  unfold total
  omega

end Frame

namespace SizeForm

def width : SizeForm → Nat
  | .short => 1
  | .long => 4

theorem length_header (form : SizeForm) (size : Nat) : (form.header size).length = form.width := by
  cases form <;> simp [header, width]

/-- The frame of a record in this form. -/
def frame (form : SizeForm) (size : Nat) : Frame :=
  ⟨form.width, size⟩

theorem padding_eq (form : SizeForm) (size : Nat) :
    form.padding size = (form.frame size).total - (form.frame size).body := by
  cases form <;> simp only [padding, frame, Frame.total, Frame.body, width] <;> omega

end SizeForm

namespace Frame

theorem of?_header {form : SizeForm} {size : Nat} (admits : form.Admits size)
    (more : List UInt8) : of? (form.header size ++ more) = some (form.frame size) := by
  cases form with
  | short =>
    obtain ⟨small, other⟩ := admits
    have back : (UInt8.ofNat size).toNat = size := by
      rw [UInt8.toNat_ofNat', Nat.mod_eq_of_lt small]
    have unmarked : UInt8.ofNat size ≠ 254 := by
      intro marker
      rw [marker] at back
      exact other back.symm
    simp [of?, SizeForm.header, LittleEndian.encode, unmarked, back, SizeForm.frame, SizeForm.width]
  | long =>
    have number : LittleEndian.value (LittleEndian.encode 3 size) = size := by
      rw [LittleEndian.value_encode]
      exact Nat.mod_eq_of_lt admits
    have front : (LittleEndian.encode 3 size ++ more).take 3 = LittleEndian.encode 3 size :=
      List.take_left' (LittleEndian.length_encode 3 size)
    have enough : ¬ (LittleEndian.encode 3 size ++ more).length < 3 := by simp
    simp only [SizeForm.header, List.cons_append, of?, if_pos, if_neg enough, front, number]
    rfl

theorem exists_header_of_of? {ahead : List UInt8} {frame : Frame} (h : of? ahead = some frame) :
    ∃ (form : SizeForm) (more : List UInt8), form.Admits frame.size ∧
      frame = form.frame frame.size ∧ ahead = form.header frame.size ++ more := by
  unfold of? at h
  split at h
  · cases h
  next first rest =>
    split at h
    next marker =>
      split at h
      · cases h
      next enough =>
        cases h
        have length : (rest.take 3).length = 3 := by simp; omega
        have small := LittleEndian.value_lt (rest.take 3)
        have same := LittleEndian.encode_value (rest.take 3)
        rw [length] at small same
        refine ⟨.long, rest.drop 3, small, rfl, ?_⟩
        simp [SizeForm.header, same, marker]
    next other =>
      cases h
      refine ⟨.short, rest, ⟨first.toNat_lt, ?_⟩, rfl, ?_⟩
      · intro same
        exact other (UInt8.toNat_inj.mp same)
      · simp [SizeForm.header, LittleEndian.encode]

end Frame

namespace Record

def frame (r : Record) : Frame :=
  r.form.frame r.payload.length

theorem length_header (r : Record) :
    (r.form.header r.payload.length).length = r.frame.header :=
  r.form.length_header _

theorem length_bytes (r : Record) : r.bytes.length = r.frame.total := by
  have ordered := r.frame.body_le_total
  have pad := r.form.padding_eq r.payload.length
  simp only [bytes, List.length_append, r.length_header, r.length_padding, pad]
  simp only [frame, Frame.body, SizeForm.frame] at ordered ⊢
  omega

theorem of?_bytes (r : Record) (more : List UInt8) :
    Frame.of? (r.bytes ++ more) = some r.frame := by
  rw [bytes, List.append_assoc, List.append_assoc]
  exact Frame.of?_header r.admits _

end Record

namespace Frame

/-- The bytes ahead begin with a record just if they hold all that their frame asks for. -/
theorem exists_record_iff {ahead payload form : List UInt8} :
    (∃ r : Record, r.payload = payload ∧ r.bytes = form ∧ form <+: ahead) ↔
      ∃ frame, of? ahead = some frame ∧ frame.total ≤ ahead.length ∧
        payload = (ahead.drop frame.header).take frame.size ∧ form = ahead.take frame.total := by
  constructor
  · rintro ⟨r, rfl, rfl, more, rfl⟩
    refine ⟨r.frame, r.of?_bytes more, ?_, ?_, ?_⟩
    · simp [r.length_bytes]
    · rw [Record.bytes, List.append_assoc, List.append_assoc, ← r.length_header, List.drop_left]
      exact (List.take_left ..).symm
    · rw [← r.length_bytes, List.take_left]
  · rintro ⟨frame, framed, fits, rfl, rfl⟩
    obtain ⟨form, more, admits, same, rfl⟩ := exists_header_of_of? framed
    have ordered := frame.body_le_total
    have header : (form.header frame.size).length = frame.header := by
      rw [form.length_header, same]
      rfl
    have pad : form.padding frame.size = frame.total - frame.body := by
      rw [form.padding_eq, ← same]
    simp only [List.length_append, header, body] at fits ordered pad
    have whole : frame.total = frame.header + (frame.size + form.padding frame.size) := by omega
    have payload : (more.take frame.size).length = frame.size := by
      simp
      omega
    refine ⟨⟨form, more.take frame.size, (more.drop frame.size).take (form.padding frame.size),
      by rwa [payload], ?_⟩, ?_, ?_, List.take_prefix _ _⟩
    · rw [payload]
      simp
      omega
    · rw [← header, List.drop_left]
    · simp only [Record.bytes]
      rw [payload, whole, ← header, List.take_length_add_append, List.take_add, List.append_assoc]

end Frame

namespace Decoder

variable {scope : Scope V} {p q : Progress}

theorem exec_bytes_ok_iff_frame {payload : ByteArray} :
    bytes.exec scope p = (.ok payload, q) ↔
      ∃ frame, Frame.of? p.cursor.rest = some frame ∧ frame.total ≤ p.cursor.rest.length ∧
        payload.data.toList = (p.cursor.rest.drop frame.header).take frame.size ∧
        p.Passes (p.cursor.rest.take frame.total) q := by
  rw [exec_bytes_ok_iff, Progress.reads_record_iff]
  constructor
  · rintro ⟨r, same, passes⟩
    obtain ⟨frame, framed, fits, payload, form⟩ :=
      Frame.exists_record_iff.mp ⟨r, same, rfl, q.cursor.rest, passes.rest.symm⟩
    exact ⟨frame, framed, fits, payload, form ▸ passes⟩
  · rintro ⟨frame, framed, fits, payload, passes⟩
    obtain ⟨r, same, form, -⟩ := Frame.exists_record_iff.mpr ⟨frame, framed, fits, payload, rfl⟩
    exact ⟨r, same, form ▸ passes⟩

/-- The read stops `start` bytes on, where fewer than `needed` bytes are left. -/
def Stops (p : Progress) (start needed : Nat) (e : Fault) (q : Progress) : Prop :=
  e = .underrun needed q.cursor.remaining ∧ ∃ passed, passed.length = start ∧ p.Passes passed q

theorem take_stops {count : Nat} {e : Fault} (run : p.take count = (.error e, q)) :
    p.cursor.rest.length < count ∧ Stops p 0 count e q := by
  obtain ⟨short, rfl, rfl⟩ := Progress.take_error_iff.mp run
  rw [Cursor.length_rest]
  exact ⟨short, rfl, [], rfl, Progress.passes_nil_iff.mpr rfl⟩

theorem Stops.behind {m : Progress} {start needed : Nat} {e : Fault} {front : List UInt8}
    (passed : p.Passes front m) (h : Stops m start needed e q) :
    Stops p (front.length + start) needed e q := by
  obtain ⟨same, more, rfl, passes⟩ := h
  exact ⟨same, front ++ more, by simp, Progress.passes_append_iff.mpr ⟨m, passed, passes⟩⟩

theorem exec_made_error_iff {α β : Type} {d : Decoder V α} {make : α → β} {e : Fault} :
    (do return make (← d) : Decoder V β).exec scope p = (.error e, q) ↔
      d.exec scope p = (.error e, q) := by
  rw [exec_bind_error_iff]
  simp

theorem exec_recordHeader_error {e : Fault} (run : recordHeader.exec scope p = (.error e, q)) :
    ∃ start needed, Frame.Cut p.cursor.rest start needed ∧ Stops p start needed e q := by
  unfold recordHeader at run
  rw [exec_bind_error_iff] at run
  rcases run with first | ⟨first, m, byte, rest⟩
  · obtain ⟨short, stops⟩ := take_stops (exec_made_error_iff.mp first)
    rw [List.eq_nil_of_length_eq_zero (Nat.lt_one_iff.mp short)]
    exact ⟨0, 1, .first, stops⟩
  · have byte := exec_byte_ok_iff.mp byte
    split at rest
    next marker =>
      obtain ⟨short, stops⟩ := take_stops (exec_made_error_iff.mp rest)
      rw [byte.rest, marker]
      exact ⟨1, 3, .size short, stops.behind byte⟩
    next => cases rest

theorem exec_padding_error {α : Type} {count : Nat} {a : α} {e : Fault}
    (run : (if count ≠ 0 then do let _ ← take count; pure a else pure a : Decoder V α).exec scope p =
      (.error e, q)) :
    p.cursor.rest.length < count ∧ Stops p 0 count e q := by
  split at run
  · rw [exec_bind_error_iff] at run
    rcases run with padding | ⟨_, _, _, done⟩
    · exact take_stops padding
    · cases done
  · cases run

theorem exec_bytes_error {e : Fault} (run : bytes.exec scope p = (.error e, q)) :
    ∃ start needed, Frame.Cut p.cursor.rest start needed ∧ Stops p start needed e q := by
  unfold bytes at run
  rw [exec_bind_error_iff] at run
  rcases run with header | ⟨⟨size, padding⟩, m, header, run⟩
  · exact exec_recordHeader_error header
  obtain ⟨form, admits, rfl, head⟩ := exec_recordHeader_ok_iff.mp header
  have framed := Frame.of?_header admits m.cursor.rest
  rw [← head.rest] at framed
  have ahead := congrArg List.length head.rest
  rw [List.length_append, form.length_header] at ahead
  dsimp only at run
  rw [exec_bind_error_iff] at run
  rcases run with payload | ⟨payload, m', taken, run⟩
  · obtain ⟨short, stops⟩ := take_stops payload
    have stops := stops.behind head
    rw [form.length_header] at stops
    refine ⟨_, _, .payload framed ?_, stops⟩
    simp only [Frame.body, SizeForm.frame]
    omega
  · obtain ⟨length, middle⟩ := exec_take_ok_iff.mp taken
    have length : payload.data.toList.length = size := by simpa using length
    have beyond := congrArg List.length middle.rest
    rw [List.length_append, length] at beyond
    obtain ⟨short, stops⟩ := exec_padding_error run
    have stops := (stops.behind middle).behind head
    rw [form.length_header, length] at stops
    rw [form.padding_eq] at short stops
    have ordered := (form.frame size).body_le_total
    refine ⟨_, _, .padding framed ?_ ?_, stops⟩
    · simp only [Frame.body, SizeForm.frame]
      omega
    · simp only [Frame.body, SizeForm.frame] at ordered short ⊢
      omega

end Decoder

/-! ## Every end of a read -/

theorem Frame.Cut.unique {ahead : List UInt8} {start start' needed needed' : Nat}
    (h : Cut ahead start needed) (h' : Cut ahead start' needed') :
    start = start' ∧ needed = needed' := by
  cases h <;> cases h' <;> simp_all [of?] <;> omega

theorem Frame.Cut.not_whole {ahead : List UInt8} {start needed : Nat} {frame : Frame}
    (h : Cut ahead start needed) (framed : of? ahead = some frame) :
    ¬ frame.total ≤ ahead.length := by
  have := frame.body_le_total
  cases h <;> simp_all [of?]
  omega

/-- A record is read just if the bytes ahead hold all that its first bytes ask for. -/
theorem bytes_framed (reader : Reader V) (c : Cursor) :
    let run := reader.run .bytes c
    run.reader = reader ∧ run.cursor.buffer = c.buffer ∧
      (∀ payload k, run.result = .ok payload ∧ run.cursor.position = k ↔
        ∃ frame, Frame.of? c.rest = some frame ∧ frame.total ≤ c.rest.length ∧
          payload.data.toList = (c.rest.drop frame.header).take frame.size ∧
          k = c.position + frame.total) ∧
      ∀ e k, run.result = .error e ∧ run.cursor.position = k ↔
        ∃ start needed, Frame.Cut c.rest start needed ∧
          e = .underrun needed run.cursor.remaining ∧ k = c.position + start := by
  intro run
  refine ⟨reader.reader_run .bytes c, (reader.exec_stays .bytes ⟨c, reader.depth⟩).buffer,
    fun payload k => ⟨?_, ?_⟩, fun e k => ⟨?_, ?_⟩⟩
  · rintro ⟨h, rfl⟩
    obtain ⟨frame, framed, fits, payload, passes⟩ :=
      Decoder.exec_bytes_ok_iff_frame.mp (Reader.exec_of_result h)
    refine ⟨frame, framed, fits, payload, ?_⟩
    rw [passes.position, List.length_take_of_le fits]
  · rintro ⟨frame, framed, fits, payload, rfl⟩
    obtain ⟨q, passes, -⟩ := Progress.exists_passes (p := ⟨c, reader.depth⟩)
      (List.take_append_drop frame.total c.rest).symm
    have read : run = _ := Reader.run_eq_of_exec
      (Decoder.exec_bytes_ok_iff_frame.mpr ⟨frame, framed, fits, payload, passes⟩)
    rw [read]
    exact ⟨rfl, by rw [passes.position, List.length_take_of_le fits]⟩
  · rintro ⟨h, rfl⟩
    obtain ⟨start, needed, cut, same, passed, length, passes⟩ :=
      Decoder.exec_bytes_error (Reader.exec_of_result h)
    exact ⟨start, needed, cut, same, length ▸ passes.position⟩
  · rintro ⟨start, needed, cut, rfl, rfl⟩
    -- The read comes to one of its ends, and the record is not cut in two ways.
    cases h : run.result with
    | ok payload =>
      obtain ⟨frame, framed, fits, -⟩ := Decoder.exec_bytes_ok_iff_frame.mp (Reader.exec_of_result h)
      exact absurd fits (cut.not_whole framed)
    | error e =>
      obtain ⟨start', needed', cut', same, passed, length, passes⟩ :=
        Decoder.exec_bytes_error (Reader.exec_of_result h)
      obtain ⟨rfl, rfl⟩ := cut.unique cut'
      exact ⟨congrArg Except.error same, length ▸ passes.position⟩

end TaggedWire
