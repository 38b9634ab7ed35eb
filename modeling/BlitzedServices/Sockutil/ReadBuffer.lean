import BlitzedServices.Sockutil.WriteBuffer

/-!
# The read buffer of the server socket

`read_netbuf` is the circular array of `NET_BUFSIZE` bytes that `sockutil.c` reads the server into:
`read_curpos` is the next byte to return, `read_bufend` the next free byte. `fillReadBuffer` is the
inner loop of both readers, which reads while the array has room and `select()` reports data.
`bufferedRead` copies out up to `len` bytes and `bufferedReadOne` a single one. A position that
leaves the array is the outcome `none`.

Two things break the queue. A failed `read()` returns `-1` into a `size_t`, is not seen as an error
and moves `read_bufend` one byte back. And when the stored bytes end exactly at the end of the array,
`read_bufend` is back at the start; a `buffered_read` of more bytes than are stored then empties the
array, takes the equal positions for a chunk and copies out stale bytes. `readCalls_fifo` shows that
in every run without these the bytes delivered followed by the bytes stored are the bytes received.
-/

set_option autoImplicit false
set_option relaxedAutoImplicit false

namespace BlitzedServices.Sockutil

open Lib

/-- The answer to one `select()`/`read()` pair. -/
inductive ReadResult
  /-- `select()` does not report data: none in time, or the call was interrupted. -/
  | notReady
  /-- `read()` returns the next `count` bytes of the stream, or as many as were requested when that
  is fewer. No byte is the end of file. -/
  | read (count : ℕ)
  /-- `read()` returns `-1`. -/
  | failed

/-- The static variables of the read side, with the bytes received from the socket so far and those
the server still has to send. -/
structure ReadState where
  netbuf : CircularBuffer UInt8 NET_BUFSIZE
  received : List UInt8
  pending : List UInt8

/-- Both pointers at the start of a zeroed array, before the first byte of `stream`. -/
def ReadState.initial (stream : List UInt8) : ReadState where
  netbuf := ⟨fun _ ↦ 0, 0, 0, NET_BUFSIZE_pos, NET_BUFSIZE_pos⟩
  received := []
  pending := stream

/-- `read_buffer_len`. -/
def readBufferLen (st : ReadState) : ℕ :=
  if st.netbuf.head ≤ st.netbuf.tail then st.netbuf.tail - st.netbuf.head
  else st.netbuf.tail + NET_BUFSIZE - st.netbuf.head

theorem readBufferLen_eq (st : ReadState) : readBufferLen st = st.netbuf.contents.length := by
  rw [CircularBuffer.length_contents]
  rfl

/-- The number of bytes requested from `read()`. -/
def maxread (b : CircularBuffer UInt8 NET_BUFSIZE) : ℕ :=
  if b.tail < b.head then b.head - 1 - b.tail
  else if b.head = 0 then NET_BUFSIZE - b.tail - 1
  else NET_BUFSIZE - b.tail

/-- The read loop shared by `buffered_read` and `buffered_read_one`: the state and the answers not
used. Without a further answer `select()` reports no data. A failed `read()` is added to
`read_bufend` like a count. -/
def fillReadBuffer (st : ReadState) : List ReadResult → Option (ReadState × List ReadResult)
  | [] => some (st, [])
  | result :: results =>
    if IsFull st.netbuf then some (st, result :: results)
    else
      match result with
      | .notReady => some (st, results)
      | .read count =>
        let nread := st.pending.take (min count (maxread st.netbuf))
        if nread = [] then some (st, results)
        else fillReadBuffer
          ⟨st.netbuf.push nread, st.received ++ nread, st.pending.drop nread.length⟩ results
      | .failed =>
        if st.netbuf.tail = 0 then none
        else fillReadBuffer { st with netbuf :=
          { st.netbuf with
            tail := st.netbuf.tail - 1
            tail_lt := lt_of_le_of_lt (Nat.sub_le _ _) st.netbuf.tail_lt } } results

/-- The first copy of `buffered_read`: the rest of the array, when the request reaches its end. -/
def drainToTop (b : CircularBuffer UInt8 NET_BUFSIZE) (left : ℕ) :
    List UInt8 × CircularBuffer UInt8 NET_BUFSIZE :=
  if NET_BUFSIZE ≤ b.head + left ∧ b.tail < b.head then
    (CircularBuffer.slice b.cell b.head (NET_BUFSIZE - b.head), b.pop (NET_BUFSIZE - b.head))
  else ([], b)

/-- The size of the second copy of `buffered_read`. -/
def drainSize (b : CircularBuffer UInt8 NET_BUFSIZE) (left : ℕ) : ℕ :=
  if b.head < b.tail ∧ b.tail - b.head < left then b.tail - b.head else left

/-- The two copies of one pass of `buffered_read`: the bytes copied out and the array left. The
second copy does not wrap, so it must end inside the array. -/
def drainReadBuffer (b : CircularBuffer UInt8 NET_BUFSIZE) (left : ℕ) :
    Option (List UInt8 × CircularBuffer UInt8 NET_BUFSIZE) :=
  let top := drainToTop b left
  let nread := drainSize top.2 (left - top.1.length)
  if top.2.head + nread < NET_BUFSIZE then
    some (top.1 ++ CircularBuffer.slice top.2.cell top.2.head nread, top.2.pop nread)
  else none

/-- A pass over an array that is not empty copies out some bytes. -/
theorem length_drainReadBuffer_pos {b b' : CircularBuffer UInt8 NET_BUFSIZE} {left : ℕ}
    {chunk : List UInt8} (hleft : left ≠ 0) (hdrain : drainReadBuffer b left = some (chunk, b')) :
    b.head ≠ b.tail → 0 < chunk.length := by
  intro hne
  have hhead := b.head_lt
  simp only [drainReadBuffer, Option.ite_none_right_eq_some, Option.some.injEq,
    Prod.mk.injEq] at hdrain
  obtain ⟨-, rfl, -⟩ := hdrain
  by_cases htop : NET_BUFSIZE ≤ b.head + left ∧ b.tail < b.head
  · simp only [drainToTop, if_pos htop, List.length_append, CircularBuffer.length_slice]
    omega
  · simp only [drainToTop, if_neg htop, drainSize, List.length_append, List.length_nil,
      CircularBuffer.length_slice]
    split_ifs <;> omega

/-- The loop of `buffered_read` for `left` more bytes: the state and the bytes delivered. -/
def readLoop (st : ReadState) (left : ℕ) (results : List ReadResult) :
    Option (ReadState × List UInt8) :=
  if _ : left = 0 then some (st, [])
  else
    match fillReadBuffer st results with
    | none => none
    | some (filled, results') =>
      if _ : filled.netbuf.head = filled.netbuf.tail then some (filled, [])
      else
        match _ : drainReadBuffer filled.netbuf left with
        | none => none
        | some (chunk, netbuf) =>
          (readLoop { filled with netbuf } (left - chunk.length) results').map
            fun (final, more) ↦ (final, chunk ++ more)
  termination_by left
  decreasing_by
    have := length_drainReadBuffer_pos ‹left ≠ 0› ‹_ = some (chunk, netbuf)› ‹_ ≠ _›
    omega

/-- `buffered_read`: its return value, the bytes it delivered and the state it leaves. -/
def bufferedRead (st : ReadState) (fd len : ℤ) (results : List ReadResult) :
    Option (ℤ × List UInt8 × ReadState) :=
  if fd < 0 then some (-1, [], st)
  else (readLoop st len.toNat results).map fun (final, bytes) ↦ (bytes.length, bytes, final)

/-- `buffered_read_one`: the byte it returns, or `none` for `EOF`, and the state it leaves. -/
def bufferedReadOne (st : ReadState) (fd : ℤ) (results : List ReadResult) :
    Option (Option UInt8 × ReadState) :=
  if fd < 0 then some (none, st)
  else (fillReadBuffer st results).map fun (filled, _) ↦
    if filled.netbuf.head = filled.netbuf.tail then (none, filled)
    else (some (filled.netbuf.cell filled.netbuf.head),
      { filled with netbuf := filled.netbuf.pop 1 })

/-! ### Passes that keep the queue -/

/-- Between `st` and `st'` the front `bytes` of the queue is delivered, and what is received on the
way is stored behind it. -/
def Delivers (st : ReadState) (bytes : List UInt8) (st' : ReadState) : Prop :=
  ∃ got, st.netbuf.contents ++ got = bytes ++ st'.netbuf.contents ∧
    st'.received = st.received ++ got ∧ st.pending = got ++ st'.pending

theorem Delivers.refl (st : ReadState) : Delivers st [] st :=
  ⟨[], List.append_nil _, (List.append_nil _).symm, rfl⟩

theorem Delivers.trans {st st₁ st' : ReadState} {bytes more : List UInt8}
    (h : Delivers st bytes st₁) (h' : Delivers st₁ more st') : Delivers st (bytes ++ more) st' := by
  obtain ⟨got, hqueue, hreceived, hpending⟩ := h
  obtain ⟨got', hqueue', hreceived', hpending'⟩ := h'
  refine ⟨got ++ got', ?_, ?_, ?_⟩
  · rw [← List.append_assoc, hqueue, List.append_assoc, hqueue', List.append_assoc]
  · rw [hreceived', hreceived, List.append_assoc]
  · rw [hpending, hpending', List.append_assoc]

/-- Taking `chunk` from the front of the array delivers it. -/
theorem Delivers.of_contents {st : ReadState} {chunk : List UInt8}
    {netbuf : CircularBuffer UInt8 NET_BUFSIZE}
    (h : st.netbuf.contents = chunk ++ netbuf.contents) :
    Delivers st chunk { st with netbuf } :=
  ⟨[], by rw [List.append_nil, h], (List.append_nil _).symm, rfl⟩

/-- One successful `read()` stores what it returns. -/
theorem Delivers.of_read (st : ReadState) (count : ℕ) (hfull : ¬ IsFull st.netbuf) :
    Delivers st []
      ⟨st.netbuf.push (st.pending.take (min count (maxread st.netbuf))),
        st.received ++ st.pending.take (min count (maxread st.netbuf)),
        st.pending.drop (st.pending.take (min count (maxread st.netbuf))).length⟩ := by
  have hhead := st.netbuf.head_lt
  have htail := st.netbuf.tail_lt
  have hone : st.netbuf.head ≠ st.netbuf.tail + 1 := fun heq ↦ hfull (Or.inl heq)
  have hend : ¬ (st.netbuf.head = 0 ∧ st.netbuf.tail = NET_BUFSIZE - 1) :=
    fun heq ↦ hfull (Or.inr heq)
  have hroom : st.netbuf.tail + maxread st.netbuf ≤ NET_BUFSIZE ∧
      st.netbuf.length + maxread st.netbuf < NET_BUFSIZE := by
    unfold maxread CircularBuffer.length
    split_ifs <;> omega
  have hlength : (st.pending.take (min count (maxread st.netbuf))).length ≤ maxread st.netbuf := by
    rw [List.length_take]
    omega
  refine ⟨st.pending.take (min count (maxread st.netbuf)), ?_, rfl, ?_⟩
  · exact (CircularBuffer.contents_push _ _ (by omega) (by omega)).symm
  · conv_lhs => rw [← List.take_append_drop (min count (maxread st.netbuf)) st.pending]
    congr 1
    rw [List.length_take]
    rcases Nat.le_total (min count (maxread st.netbuf)) st.pending.length with h | h
    · rw [Nat.min_eq_left h]
    · rw [Nat.min_eq_right h, List.drop_length, List.drop_eq_nil_of_le h]

/-- Assumes `read()` never fails. Reading delivers nothing and keeps the queue. -/
theorem fillReadBuffer_spec {st : ReadState} {results : List ReadResult}
    (h : .failed ∉ results) :
    ∃ st' left, fillReadBuffer st results = some (st', left) ∧ left <:+ results ∧
      Delivers st [] st' := by
  induction results generalizing st with
  | nil => exact ⟨st, [], rfl, List.suffix_rfl, .refl st⟩
  | cons result results ih =>
    by_cases hfull : IsFull st.netbuf
    · have hfill : fillReadBuffer st (result :: results) = some (st, result :: results) := by
        simp only [fillReadBuffer, if_pos hfull]
      exact ⟨st, result :: results, hfill, List.suffix_rfl, .refl st⟩
    · cases result with
      | failed => simp at h
      | notReady =>
        have hfill : fillReadBuffer st (.notReady :: results) = some (st, results) := by
          simp only [fillReadBuffer, if_neg hfull]
        exact ⟨st, results, hfill, List.suffix_cons _ _, .refl st⟩
      | read count =>
        by_cases hnil : st.pending.take (min count (maxread st.netbuf)) = []
        · have hfill : fillReadBuffer st (.read count :: results) = some (st, results) := by
            simp only [fillReadBuffer, if_neg hfull, if_pos hnil]
          exact ⟨st, results, hfill, List.suffix_cons _ _, .refl st⟩
        · obtain ⟨st', left, hfill, hleft, hdelivers⟩ :=
            @ih _ (fun hmem ↦ h (List.mem_cons_of_mem _ hmem))
          refine ⟨st', left, ?_, hleft.trans (List.suffix_cons _ _),
            (Delivers.of_read st count hfull).trans hdelivers⟩
          simp only [fillReadBuffer, if_neg hfull, if_neg hnil, hfill]

/-- The condition on the copies of one pass: bytes that end at the end of the array are not asked
for past that end. -/
def DrainMeets (b : CircularBuffer UInt8 NET_BUFSIZE) (left : ℕ) : Prop :=
  b.tail = 0 → b.head ≠ 0 → b.head + left ≤ NET_BUFSIZE

/-- The copies of a pass take the front of the stored bytes, no more than were asked for. -/
theorem drainReadBuffer_spec {b : CircularBuffer UInt8 NET_BUFSIZE} {left : ℕ}
    (hne : b.head ≠ b.tail) (hmeets : DrainMeets b left) :
    ∃ chunk b', drainReadBuffer b left = some (chunk, b') ∧
      b.contents = chunk ++ b'.contents ∧ chunk.length ≤ left := by
  have hhead := b.head_lt
  have htail := b.tail_lt
  by_cases htop : NET_BUFSIZE ≤ b.head + left ∧ b.tail < b.head
  · have hrest : NET_BUFSIZE - b.head ≤ b.length := by
      unfold CircularBuffer.length
      split_ifs <;> omega
    have hfirst := CircularBuffer.contents_eq_slice_append_pop b (NET_BUFSIZE - b.head)
      (by omega) hrest
    have hstart : (b.pop (NET_BUFSIZE - b.head)).head = 0 := by
      simp only [CircularBuffer.pop_head, CircularBuffer.advance]
      split_ifs <;> omega
    have hsize : drainSize (b.pop (NET_BUFSIZE - b.head)) (left - (NET_BUFSIZE - b.head)) ≤
        b.tail := by
      have := hmeets
      simp only [drainSize, hstart, CircularBuffer.pop_tail, DrainMeets] at this ⊢
      split_ifs <;> omega
    have hlength : (b.pop (NET_BUFSIZE - b.head)).length = b.tail := by
      rw [CircularBuffer.length, hstart]
      simp
    have hsecond := CircularBuffer.contents_eq_slice_append_pop (b.pop (NET_BUFSIZE - b.head))
      (drainSize (b.pop (NET_BUFSIZE - b.head)) (left - (NET_BUFSIZE - b.head)))
      (by omega) (by omega)
    have hdrain : drainReadBuffer b left =
        some (CircularBuffer.slice b.cell b.head (NET_BUFSIZE - b.head) ++
            CircularBuffer.slice b.cell 0
              (drainSize (b.pop (NET_BUFSIZE - b.head)) (left - (NET_BUFSIZE - b.head))),
          (b.pop (NET_BUFSIZE - b.head)).pop
            (drainSize (b.pop (NET_BUFSIZE - b.head)) (left - (NET_BUFSIZE - b.head)))) := by
      simp only [drainReadBuffer, drainToTop, if_pos htop, CircularBuffer.length_slice, hstart]
      exact if_pos (by omega)
    have hle : drainSize (b.pop (NET_BUFSIZE - b.head)) (left - (NET_BUFSIZE - b.head)) ≤
        left - (NET_BUFSIZE - b.head) := by
      unfold drainSize
      split_ifs <;> omega
    rw [hstart] at hsecond
    refine ⟨_, _, hdrain, ?_, ?_⟩
    · rw [List.append_assoc, hfirst]
      exact congrArg _ hsecond
    · simp only [List.length_append, CircularBuffer.length_slice]
      omega
  · have hsize : b.head + drainSize b left < NET_BUFSIZE ∧ drainSize b left ≤ b.length ∧
        drainSize b left ≤ left := by
      unfold drainSize CircularBuffer.length
      split_ifs <;> omega
    have hslice := CircularBuffer.contents_eq_slice_append_pop b (drainSize b left)
      (by omega) hsize.2.1
    have hdrain : drainReadBuffer b left =
        some (CircularBuffer.slice b.cell b.head (drainSize b left), b.pop (drainSize b left)) := by
      simp only [drainReadBuffer, drainToTop, if_neg htop, List.length_nil, Nat.sub_zero,
        List.nil_append]
      exact if_pos hsize.1
    exact ⟨_, _, hdrain, hslice, by simpa using hsize.2.2⟩

/-- Every pass of the loop of one `buffered_read` meets `DrainMeets`. -/
inductive ReadLoopMeets : ReadState → ℕ → List ReadResult → Prop
  | done {st : ReadState} {results : List ReadResult} : ReadLoopMeets st 0 results
  | pass {st : ReadState} {left : ℕ} {results : List ReadResult} :
      left ≠ 0 →
      (∀ filled results', fillReadBuffer st results = some (filled, results') →
        filled.netbuf.head ≠ filled.netbuf.tail → DrainMeets filled.netbuf left) →
      (∀ filled results' chunk netbuf, fillReadBuffer st results = some (filled, results') →
        drainReadBuffer filled.netbuf left = some (chunk, netbuf) →
        ReadLoopMeets { filled with netbuf } (left - chunk.length) results') →
      ReadLoopMeets st left results

theorem readLoop_zero (st : ReadState) (results : List ReadResult) :
    readLoop st 0 results = some (st, []) := by
  rw [readLoop, dif_pos rfl]

theorem readLoop_of_empty {st filled : ReadState} {left : ℕ} {results results' : List ReadResult}
    (hleft : left ≠ 0) (hfill : fillReadBuffer st results = some (filled, results'))
    (hempty : filled.netbuf.head = filled.netbuf.tail) :
    readLoop st left results = some (filled, []) := by
  rw [readLoop, dif_neg hleft, hfill]
  simp only [dif_pos hempty]

theorem readLoop_of_drain {st filled : ReadState} {left : ℕ} {results results' : List ReadResult}
    {chunk : List UInt8} {netbuf : CircularBuffer UInt8 NET_BUFSIZE} (hleft : left ≠ 0)
    (hfill : fillReadBuffer st results = some (filled, results'))
    (hne : filled.netbuf.head ≠ filled.netbuf.tail)
    (hdrain : drainReadBuffer filled.netbuf left = some (chunk, netbuf)) :
    readLoop st left results =
      (readLoop { filled with netbuf } (left - chunk.length) results').map
        fun (final, more) ↦ (final, chunk ++ more) := by
  rw [readLoop, dif_neg hleft, hfill]
  simp only [dif_neg hne]
  split
  · next hnone => rw [hdrain] at hnone; cases hnone
  · next hsome =>
    rw [hdrain, Option.some.injEq, Prod.mk.injEq] at hsome
    obtain ⟨rfl, rfl⟩ := hsome
    rfl

/-- Assumes `read()` never fails. What the loop delivers is the front of the queue. -/
theorem readLoop_spec {st : ReadState} {left : ℕ} {results : List ReadResult}
    (hfailed : .failed ∉ results) (h : ReadLoopMeets st left results) :
    ∃ st' bytes, readLoop st left results = some (st', bytes) ∧ bytes.length ≤ left ∧
      Delivers st bytes st' := by
  induction h with
  | @done st results => exact ⟨st, [], readLoop_zero st results, by simp, .refl st⟩
  | @pass st left results hleft hmeets _ ih =>
    obtain ⟨filled, results', hfill, hsuffix, hdelivers⟩ := fillReadBuffer_spec hfailed
    by_cases hempty : filled.netbuf.head = filled.netbuf.tail
    · exact ⟨filled, [], readLoop_of_empty hleft hfill hempty, by simp, hdelivers⟩
    · obtain ⟨chunk, netbuf, hdrain, hchunk, hlength⟩ :=
        drainReadBuffer_spec hempty (hmeets filled results' hfill hempty)
      obtain ⟨st', bytes, hloop, hbytes, hrest⟩ :=
        ih filled results' chunk netbuf hfill hdrain
          (fun hmem ↦ hfailed (hsuffix.mem hmem))
      refine ⟨st', chunk ++ bytes, ?_, ?_, ?_⟩
      · rw [readLoop_of_drain hleft hfill hempty hdrain, hloop, Option.map_some]
      · rw [List.length_append]
        omega
      · exact hdelivers.trans ((Delivers.of_contents hchunk).trans hrest)

theorem bufferedReadOne_spec {fd : ℕ} {st : ReadState} {results : List ReadResult}
    (hfailed : .failed ∉ results) :
    ∃ c st', bufferedReadOne st fd results = some (c, st') ∧ Delivers st c.toList st' := by
  obtain ⟨filled, left, hfill, -, hdelivers⟩ := @fillReadBuffer_spec st _ hfailed
  have hfd : ¬ (fd : ℤ) < 0 := by omega
  by_cases hempty : filled.netbuf.head = filled.netbuf.tail
  · refine ⟨none, filled, ?_, hdelivers⟩
    simp only [bufferedReadOne, if_neg hfd, hfill, Option.map_some, if_pos hempty]
  · refine ⟨some (filled.netbuf.cell filled.netbuf.head),
      { filled with netbuf := filled.netbuf.pop 1 }, ?_, hdelivers.trans (.of_contents ?_)⟩
    · simp only [bufferedReadOne, if_neg hfd, hfill, Option.map_some, if_neg hempty]
    · have hlength : filled.netbuf.length ≠ 0 :=
        fun h ↦ hempty (filled.netbuf.length_eq_zero_iff.mp h)
      exact CircularBuffer.contents_eq_slice_append_pop filled.netbuf 1 filled.netbuf.head_lt
        (by omega)

/-- Data is at hand: when the array is empty, `select()` is not interrupted and the first `read()`
returns bytes. -/
def DataReady (st : ReadState) (results : List ReadResult) : Prop :=
  st.netbuf.head = st.netbuf.tail →
    st.pending ≠ [] ∧ ∃ count, 0 < count ∧ results.head? = some (.read count)

/-- Assumes `read()` never fails. With data at hand the array is not empty after the reads. -/
theorem fillReadBuffer_ne_empty {st filled : ReadState} {results left : List ReadResult}
    (hfailed : .failed ∉ results)
    (hready : DataReady st results)
    (hfill : fillReadBuffer st results = some (filled, left)) :
    filled.netbuf.head ≠ filled.netbuf.tail := by
  have hkeeps : ∀ {st₁ : ReadState} {results₁ : List ReadResult}, .failed ∉ results₁ →
      st₁.netbuf.contents ≠ [] → fillReadBuffer st₁ results₁ = some (filled, left) →
        filled.netbuf.contents ≠ [] := by
    intro st₁ results₁ hfailed₁ hne hfill₁ hnil
    obtain ⟨st', left', hfill', -, got, hqueue, -, -⟩ := @fillReadBuffer_spec st₁ _ hfailed₁
    rw [hfill₁, Option.some.injEq, Prod.mk.injEq] at hfill'
    rw [← hfill'.1, hnil, List.append_nil, List.append_eq_nil_iff] at hqueue
    exact hne hqueue.1
  rw [ne_eq, ← CircularBuffer.contents_eq_nil_iff]
  by_cases hempty : st.netbuf.head = st.netbuf.tail
  · obtain ⟨hpending, count, hcount, hhead⟩ := hready hempty
    obtain ⟨rest, rfl⟩ := List.head?_eq_some_iff.mp hhead
    have hlt := st.netbuf.head_lt
    have hsize : 2 ≤ NET_BUFSIZE := by decide
    have hfull : ¬ IsFull st.netbuf := by
      unfold IsFull
      omega
    have hroom : 0 < min count (maxread st.netbuf) := by
      unfold maxread
      split_ifs <;> omega
    have hnread : st.pending.take (min count (maxread st.netbuf)) ≠ [] := by
      rw [ne_eq, List.take_eq_nil_iff]
      rintro (h | h)
      · omega
      · exact hpending h
    simp only [fillReadBuffer, if_neg hfull, if_neg hnread] at hfill
    refine hkeeps (fun hmem ↦ hfailed (List.mem_cons_of_mem _ hmem)) ?_ hfill
    obtain ⟨got, hqueue, hreceived, -⟩ := Delivers.of_read st count hfull
    rw [List.append_right_inj] at hreceived
    rw [List.nil_append, ← hreceived] at hqueue
    rw [← hqueue]
    exact List.append_ne_nil_of_right_ne_nil _ hnread
  · exact hkeeps hfailed (fun hnil ↦ hempty ((CircularBuffer.contents_eq_nil_iff _).mp hnil)) hfill

/-- Assumes `read()` never fails. With data at hand the oldest byte is delivered. -/
theorem bufferedReadOne_eq_some {fd : ℕ} {st : ReadState} {results : List ReadResult}
    (hfailed : .failed ∉ results)
    (hready : DataReady st results) :
    ∃ c st', bufferedReadOne st fd results = some (some c, st') ∧ Delivers st [c] st' := by
  obtain ⟨filled, left, hfill, -, -⟩ := @fillReadBuffer_spec st _ hfailed
  have hne := fillReadBuffer_ne_empty hfailed hready hfill
  obtain ⟨c, st', hread, hdelivers⟩ := @bufferedReadOne_spec fd st results hfailed
  have hfd : ¬ (fd : ℤ) < 0 := by omega
  have hsome : bufferedReadOne st fd results = some (some (filled.netbuf.cell filled.netbuf.head),
      { filled with netbuf := filled.netbuf.pop 1 }) := by
    simp only [bufferedReadOne, if_neg hfd, hfill, Option.map_some, if_neg hne]
  rw [hsome, Option.some.injEq, Prod.mk.injEq] at hread
  refine ⟨_, st', by rw [hsome, hread.2], ?_⟩
  rwa [← hread.1] at hdelivers

/-! ### Runs of calls -/

/-- One call of a reader on the connected socket, with the answers to its reads. -/
inductive ReadCall
  | bufferedRead (len : ℤ) (results : List ReadResult)
  | bufferedReadOne (results : List ReadResult)

/-- One call: the bytes it delivers and the state it leaves. -/
def ReadCall.run (fd : ℕ) (st : ReadState) : ReadCall → Option (List UInt8 × ReadState)
  | .bufferedRead len results => (Sockutil.bufferedRead st fd len results).map Prod.snd
  | .bufferedReadOne results =>
    (Sockutil.bufferedReadOne st fd results).map fun (c, st') ↦ (c.toList, st')

/-- A run of calls: the bytes delivered, concatenated, and the state left. -/
def readCalls (fd : ℕ) : List ReadCall → ReadState → Option (List UInt8 × ReadState)
  | [], st => some ([], st)
  | call :: calls, st =>
    (call.run fd st).bind fun (bytes, st') ↦
      (readCalls fd calls st').map fun (more, final) ↦ (bytes ++ more, final)

/-- The condition on a call: `read()` does not fail, and the passes of a `buffered_read` meet
`DrainMeets`. -/
def ReadCall.Meets (st : ReadState) : ReadCall → Prop
  | .bufferedRead len results => .failed ∉ results ∧ ReadLoopMeets st len.toNat results
  | .bufferedReadOne results => .failed ∉ results

/-- Every call of a run meets its condition. -/
def ReadRunMeets (fd : ℕ) : List ReadCall → ReadState → Prop
  | [], _ => True
  | call :: calls, st =>
    call.Meets st ∧ ∀ bytes st', call.run fd st = some (bytes, st') → ReadRunMeets fd calls st'

/-- The read buffer is a queue along a run over `stream`: no position leaves the array, the bytes
received are a front of the stream, those delivered followed by those stored are the bytes received,
and `read_buffer_len` is the number received and not yet delivered. -/
def IsReadFifo (fd : ℕ) (stream : List UInt8) (calls : List ReadCall) : Prop :=
  ∃ delivered st, readCalls fd calls (.initial stream) = some (delivered, st) ∧
    st.received ++ st.pending = stream ∧
    delivered ++ st.netbuf.contents = st.received ∧
    readBufferLen st + delivered.length = st.received.length

theorem ReadCall.run_spec {fd : ℕ} {st : ReadState} {call : ReadCall} (h : call.Meets st) :
    ∃ bytes st', call.run fd st = some (bytes, st') ∧ Delivers st bytes st' := by
  cases call with
  | bufferedRead len results =>
    obtain ⟨st', bytes, hloop, -, hdelivers⟩ := readLoop_spec h.1 h.2
    refine ⟨bytes, st', ?_, hdelivers⟩
    have hfd : ¬ (fd : ℤ) < 0 := by omega
    simp only [ReadCall.run, Sockutil.bufferedRead, if_neg hfd, hloop, Option.map_some]
  | bufferedReadOne results =>
    obtain ⟨c, st', hread, hdelivers⟩ := @bufferedReadOne_spec fd st results h
    refine ⟨c.toList, st', ?_, hdelivers⟩
    simp only [ReadCall.run, hread, Option.map_some]

/-- The run lemma from any state of the buffer. -/
theorem readCalls_spec {fd : ℕ} {calls : List ReadCall} {st : ReadState}
    (h : ReadRunMeets fd calls st) :
    ∃ delivered st', readCalls fd calls st = some (delivered, st') ∧
      Delivers st delivered st' := by
  induction calls generalizing st with
  | nil => exact ⟨[], st, rfl, .refl st⟩
  | cons call calls ih =>
    obtain ⟨bytes, st₁, hcall, hdelivers⟩ := @ReadCall.run_spec fd st call h.1
    obtain ⟨delivered, st', hrun, hrest⟩ := ih (h.2 _ _ hcall)
    refine ⟨bytes ++ delivered, st', ?_, hdelivers.trans hrest⟩
    simp only [readCalls, hcall, Option.bind_some, hrun, Option.map_some]

theorem readCalls_fifo (fd : ℕ) (stream : List UInt8) (calls : List ReadCall)
    (h : ReadRunMeets fd calls (.initial stream)) : IsReadFifo fd stream calls := by
  obtain ⟨delivered, st, hrun, got, hqueue, hreceived, hpending⟩ := readCalls_spec h
  have hgot : st.received = got := hreceived
  have hdelivered : delivered ++ st.netbuf.contents = st.received := by
    rw [hgot, ← hqueue]
    rfl
  refine ⟨delivered, st, hrun, ?_, hdelivered, ?_⟩
  · rw [hgot]
    exact hpending.symm
  · rw [readBufferLen_eq, ← hdelivered, List.length_append, Nat.add_comm]

/-- The condition holds of a read of two bytes out of three, then of a single byte. -/
theorem readCalls_fifo_partial :
    IsReadFifo 3 [72, 105, 10] [.bufferedRead 2 [.read 5], .bufferedReadOne []] := by
  refine readCalls_fifo 3 _ _ ⟨⟨by simp, .pass (by decide) ?_ ?_⟩, ?_⟩
  · intro filled results' hfill _ htail
    have hpos : (fillReadBuffer (.initial [72, 105, 10]) [.read 5]).map
        (fun p ↦ p.1.netbuf.tail) = some 3 := by rfl
    rw [hfill, Option.map_some, htail] at hpos
    cases hpos
  · intro filled results' chunk netbuf hfill hdrain
    have hlength : (fillReadBuffer (.initial [72, 105, 10]) [.read 5]).bind
        (fun p ↦ (drainReadBuffer p.1.netbuf 2).map fun q ↦ q.1.length) = some 2 := by rfl
    have hchunk : chunk.length = 2 := by
      rw [hfill, Option.bind_some] at hlength
      simpa [show drainReadBuffer filled.netbuf 2 = some (chunk, netbuf) from hdrain] using hlength
    have hleft : (2 : ℤ).toNat - chunk.length = 0 := by
      rw [hchunk]
      rfl
    rw [hleft]
    exact .done
  · intro _ _ _
    exact ⟨by simp [ReadCall.Meets], fun _ _ _ ↦ trivial⟩

/-- A first `read()` that fails moves `read_bufend` below the array. -/
theorem readCalls_not_fifo : ¬ IsReadFifo 3 [] [.bufferedReadOne [.failed]] := by
  rintro ⟨delivered, st, hrun, -, -⟩
  have hnone : readCalls 3 [.bufferedReadOne [.failed]] (.initial []) = none := by rfl
  rw [hnone] at hrun
  cases hrun

end BlitzedServices.Sockutil
