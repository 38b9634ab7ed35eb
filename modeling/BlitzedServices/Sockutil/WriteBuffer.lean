import BlitzedServices.Lib.CircularBuffer

/-!
# The write buffer of the server socket

`sockutil.c` queues output in `write_netbuf`, a circular array of `NET_BUFSIZE` bytes:
`write_curpos` is the next byte to hand to the socket, `write_bufend` the next free byte. The buffer
counts as full when one byte is left, so that equal positions always mean an empty buffer.

`bufferedWrite` alternates between a fill of the array (`fillWriteBuffer`) and one
`select()`/`write()` pair (`flushWriteBuffer`) until the data is queued or the array stays full. A
pair may find the socket not writable, write any part of the chunk offered, or fail. A position that
leaves the array is the outcome `none`.

Two passes of the loop break the queue. A failed `write()` returns `-1` into a `size_t`, passes the
test for progress and moves `write_curpos` one byte back. A fill that runs to the end of the array
while `write_curpos` is the first byte wraps `write_bufend` onto it, and the full array then counts
as empty. `bufferedWrites_fifo` shows that in every run without such a pass the bytes handed to the
socket followed by the bytes queued are the bytes accepted, in order.
-/

set_option autoImplicit false
set_option relaxedAutoImplicit false

namespace BlitzedServices.Sockutil

open Lib

/-- `NET_BUFSIZE`, the size in bytes of each network buffer. -/
def NET_BUFSIZE : ℕ := 65536

theorem NET_BUFSIZE_pos : 0 < NET_BUFSIZE := by
  decide

/-- The answer to the `select()`/`write()` pair of one flush. -/
inductive WriteResult
  /-- `select()` does not report the socket writable. -/
  | notWritable
  /-- `write()` takes `count` bytes, or the whole chunk when that is shorter. -/
  | wrote (count : ℕ)
  /-- `write()` returns `-1`. -/
  | failed

/-- The static variables of the write side, with the bytes handed to the socket so far. -/
structure WriteState where
  netbuf : CircularBuffer UInt8 NET_BUFSIZE
  writeFd : ℤ
  sent : List UInt8

/-- Both pointers at the start of a zeroed array, and no descriptor yet. -/
def WriteState.initial : WriteState where
  netbuf := ⟨fun _ ↦ 0, 0, 0, NET_BUFSIZE_pos, NET_BUFSIZE_pos⟩
  writeFd := -1
  sent := []

/-- `write_buffer_len`. -/
def writeBufferLen (st : WriteState) : ℕ :=
  if st.netbuf.head ≤ st.netbuf.tail then st.netbuf.tail - st.netbuf.head
  else st.netbuf.tail + NET_BUFSIZE - st.netbuf.head

theorem writeBufferLen_eq (st : WriteState) :
    writeBufferLen st = st.netbuf.contents.length := by
  rw [CircularBuffer.length_contents]
  rfl

/-- The test of `buffered_write` for a full buffer. -/
def IsFull (b : CircularBuffer UInt8 NET_BUFSIZE) : Prop :=
  b.head = b.tail + 1 ∨ (b.head = 0 ∧ b.tail = NET_BUFSIZE - 1)

instance (b : CircularBuffer UInt8 NET_BUFSIZE) : Decidable (IsFull b) :=
  inferInstanceAs (Decidable (_ ∨ _))

/-- The size of the chunk that `flush_write_buffer` offers to `write()`. -/
def maxwrite (b : CircularBuffer UInt8 NET_BUFSIZE) : ℕ :=
  if b.tail < b.head then NET_BUFSIZE - b.head
  else if b.tail = 0 then NET_BUFSIZE - b.head - 1
  else b.tail - b.head

/-- `flush_write_buffer`: its return value and the state it leaves. A failed `write()` counts as
progress, because its `-1` is compared as a `size_t`. -/
def flushWriteBuffer (st : WriteState) (result : WriteResult) : Option (ℤ × WriteState) :=
  if st.netbuf.tail = st.netbuf.head ∨ st.writeFd = -1 then some (0, st)
  else
    match result with
    | .notWritable => some (0, st)
    | .wrote count =>
      let nwritten := min count (maxwrite st.netbuf)
      if 0 < nwritten then
        some (nwritten, { st with
          netbuf := st.netbuf.pop nwritten
          sent := st.sent ++ CircularBuffer.slice st.netbuf.cell st.netbuf.head nwritten })
      else some (0, st)
    | .failed =>
      if st.netbuf.head = 0 then none
      else some (-1, { st with netbuf :=
        { st.netbuf with
          head := st.netbuf.head - 1
          head_lt := lt_of_le_of_lt (Nat.sub_le _ _) st.netbuf.head_lt } })

/-- The first copy of `buffered_write`: up to the end of the array, when the data reaches it. -/
def fillToTop (b : CircularBuffer UInt8 NET_BUFSIZE) (data : List UInt8) :
    CircularBuffer UInt8 NET_BUFSIZE × List UInt8 :=
  if NET_BUFSIZE ≤ b.tail + data.length ∧ b.head ≤ b.tail then
    (b.push (data.take (NET_BUFSIZE - b.tail)), data.drop (NET_BUFSIZE - b.tail))
  else (b, data)

/-- The size of the second copy of `buffered_write`. -/
def chunkSize (b : CircularBuffer UInt8 NET_BUFSIZE) (data : List UInt8) : ℕ :=
  if b.tail < b.head ∧ b.head - b.tail - 1 < data.length then b.head - b.tail - 1
  else data.length

/-- The two copies of `buffered_write`: the array and the data left over. A full array takes
nothing. The second copy does not wrap, so it must end inside the array. -/
def fillWriteBuffer (b : CircularBuffer UInt8 NET_BUFSIZE) (data : List UInt8) :
    Option (CircularBuffer UInt8 NET_BUFSIZE × List UInt8) :=
  if IsFull b then some (b, data)
  else
    let top := fillToTop b data
    let nwritten := chunkSize top.1 top.2
    if top.1.tail + nwritten < NET_BUFSIZE then
      some (top.1.push (top.2.take nwritten), top.2.drop nwritten)
    else none

/-- One pass of the loop of `buffered_write`: the state and the data left over. -/
def writePass (st : WriteState) (data : List UInt8) (result : WriteResult) :
    Option (WriteState × List UInt8) := do
  let (netbuf, rest) ← fillWriteBuffer st.netbuf data
  let (_, flushed) ← flushWriteBuffer { st with netbuf } result
  return (flushed, rest)

theorem length_fillWriteBuffer_lt {b b' : CircularBuffer UInt8 NET_BUFSIZE}
    {data rest : List UInt8} (hfull : ¬ IsFull b) (hdata : data ≠ [])
    (h : fillWriteBuffer b data = some (b', rest)) : rest.length < data.length := by
  have htail := b.tail_lt
  have hpos : 0 < data.length := List.length_pos_iff.mpr hdata
  have hone : b.head ≠ b.tail + 1 := fun heq ↦ hfull (Or.inl heq)
  simp only [fillWriteBuffer, if_neg hfull, Option.ite_none_right_eq_some, Option.some.injEq,
    Prod.mk.injEq] at h
  obtain ⟨-, -, rfl⟩ := h
  by_cases htop : NET_BUFSIZE ≤ b.tail + data.length ∧ b.head ≤ b.tail
  · simp only [fillToTop, if_pos htop, List.length_drop]
    omega
  · simp only [fillToTop, if_neg htop, List.length_drop, chunkSize]
    split_ifs <;> omega

theorem writePass_eq_some {st st' : WriteState} {data rest : List UInt8} {result : WriteResult}
    (h : writePass st data result = some (st', rest)) :
    ∃ netbuf ret, fillWriteBuffer st.netbuf data = some (netbuf, rest) ∧
      flushWriteBuffer { st with netbuf } result = some (ret, st') := by
  simp only [writePass, Option.bind_eq_bind, Option.bind_eq_some_iff, Option.pure_def,
    Option.some.injEq, Prod.mk.injEq, Prod.exists] at h
  obtain ⟨netbuf, data', hfill, ret, flushed, hflush, rfl, rfl⟩ := h
  exact ⟨netbuf, ret, hfill, hflush⟩

/-- A pass over an array that is not full takes some of the data. -/
theorem length_writePass {st st' : WriteState} {data rest : List UInt8} {result : WriteResult}
    (hdata : data ≠ []) (h : writePass st data result = some (st', rest)) :
    rest.length + (if IsFull st.netbuf then 0 else 1) ≤ data.length := by
  obtain ⟨netbuf, ret, hfill, -⟩ := writePass_eq_some h
  by_cases hfull : IsFull st.netbuf
  · rw [fillWriteBuffer, if_pos hfull, Option.some.injEq, Prod.mk.injEq] at hfill
    rw [if_pos hfull, hfill.2, Nat.add_zero]
  · rw [if_neg hfull]
    exact length_fillWriteBuffer_lt hfull hdata hfill

/-- The loop of `buffered_write`, one flush result a pass and none left meaning that the socket is
no longer writable: the state and the data that was not accepted. -/
def writeLoop (st : WriteState) (data : List UInt8) (results : List WriteResult) :
    Option (WriteState × List UInt8) :=
  if _ : data = [] then some (st, [])
  else
    match _ : writePass st data (results.headD .notWritable) with
    | none => none
    | some (st', rest) =>
      if _ : IsFull st'.netbuf then some (st', rest)
      else writeLoop st' rest results.tail
  termination_by 2 * data.length + if IsFull st.netbuf then 1 else 0
  decreasing_by
    have hlength := length_writePass ‹data ≠ []› ‹_ = some (st', rest)›
    rw [if_neg ‹¬ IsFull st'.netbuf›]
    split_ifs at hlength ⊢ <;> omega

theorem writeLoop_nil (st : WriteState) (results : List WriteResult) :
    writeLoop st [] results = some (st, []) := by
  rw [writeLoop, dif_pos rfl]

theorem writeLoop_of_pass {st st' : WriteState} {data rest : List UInt8}
    {results : List WriteResult} (hdata : data ≠ [])
    (hpass : writePass st data (results.headD .notWritable) = some (st', rest)) :
    writeLoop st data results =
      if IsFull st'.netbuf then some (st', rest) else writeLoop st' rest results.tail := by
  rw [writeLoop, dif_neg hdata]
  split
  · next hnone => rw [hpass] at hnone; cases hnone
  · next hsome =>
    rw [hpass, Option.some.injEq, Prod.mk.injEq] at hsome
    obtain ⟨rfl, rfl⟩ := hsome
    simp only [dite_eq_ite]

/-- `buffered_write`: its return value and the state it leaves. -/
def bufferedWrite (st : WriteState) (fd : ℤ) (data : List UInt8) (results : List WriteResult) :
    Option (ℤ × WriteState) :=
  if fd < 0 then some (-1, st)
  else (writeLoop { st with writeFd := fd } data results).map fun (st', rest) ↦
    (data.length - rest.length, st')

/-! ### Passes that keep the queue -/

/-- The condition on one pass: data copied to the end of the array does not wrap `write_bufend`
onto `write_curpos` at its start, and `write()` does not fail. -/
def PassMeets (st : WriteState) (data : List UInt8) (result : WriteResult) : Prop :=
  (¬ IsFull st.netbuf → st.netbuf.head = 0 → st.netbuf.tail + data.length < NET_BUFSIZE) ∧
    result ≠ .failed

/-- Every pass of the loop of one call meets `PassMeets`. -/
inductive LoopMeets : WriteState → List UInt8 → List WriteResult → Prop
  | done {st : WriteState} {results : List WriteResult} : LoopMeets st [] results
  | pass {st : WriteState} {data : List UInt8} {results : List WriteResult} :
      data ≠ [] → PassMeets st data (results.headD .notWritable) →
      (∀ st' rest, writePass st data (results.headD .notWritable) = some (st', rest) →
        ¬ IsFull st'.netbuf → LoopMeets st' rest results.tail) →
      LoopMeets st data results

/-- The first copy appends the data it takes, when it does not end on `write_curpos`. -/
theorem contents_fillToTop {b : CircularBuffer UInt8 NET_BUFSIZE} {data : List UInt8}
    (hfit : b.head = 0 → b.tail + data.length < NET_BUFSIZE) :
    ∃ taken, data = taken ++ (fillToTop b data).2 ∧
      (fillToTop b data).1.contents = b.contents ++ taken := by
  have htail := b.tail_lt
  by_cases htop : NET_BUFSIZE ≤ b.tail + data.length ∧ b.head ≤ b.tail
  · have hhead : b.head ≠ 0 := fun h ↦ absurd (hfit h) (by omega)
    have htake : (data.take (NET_BUFSIZE - b.tail)).length = NET_BUFSIZE - b.tail := by
      rw [List.length_take]
      omega
    refine ⟨data.take (NET_BUFSIZE - b.tail), ?_, ?_⟩
    · simp [fillToTop, htop]
    · rw [fillToTop, if_pos htop]
      refine CircularBuffer.contents_push _ _ (by omega) ?_
      rw [CircularBuffer.length, if_pos htop.2]
      omega
  · exact ⟨[], by simp [fillToTop, htop], by simp [fillToTop, htop]⟩

/-- After the first copy the second one stays inside the array and leaves a byte unused. -/
theorem chunkSize_fits {b : CircularBuffer UInt8 NET_BUFSIZE} {data : List UInt8}
    (hfull : ¬ IsFull b) (hfit : b.head = 0 → b.tail + data.length < NET_BUFSIZE) :
    (fillToTop b data).1.tail + chunkSize (fillToTop b data).1 (fillToTop b data).2 <
        NET_BUFSIZE ∧
      (fillToTop b data).1.length + chunkSize (fillToTop b data).1 (fillToTop b data).2 <
        NET_BUFSIZE := by
  have hhead := b.head_lt
  have htail := b.tail_lt
  have hone : b.head ≠ b.tail + 1 := fun heq ↦ hfull (Or.inl heq)
  by_cases htop : NET_BUFSIZE ≤ b.tail + data.length ∧ b.head ≤ b.tail
  · have hpos : b.head ≠ 0 := fun h ↦ absurd (hfit h) (by omega)
    have htake : (data.take (NET_BUFSIZE - b.tail)).length = NET_BUFSIZE - b.tail := by
      rw [List.length_take]
      omega
    simp only [fillToTop, if_pos htop, chunkSize, CircularBuffer.length,
      CircularBuffer.push_head, CircularBuffer.push_tail, CircularBuffer.advance, htake,
      List.length_drop]
    split_ifs <;> omega
  · simp only [fillToTop, if_neg htop, chunkSize, CircularBuffer.length]
    split_ifs <;> omega

theorem fillWriteBuffer_spec {b : CircularBuffer UInt8 NET_BUFSIZE} {data : List UInt8}
    (hfit : ¬ IsFull b → b.head = 0 → b.tail + data.length < NET_BUFSIZE) :
    ∃ b' taken rest, fillWriteBuffer b data = some (b', rest) ∧ data = taken ++ rest ∧
      b'.contents = b.contents ++ taken := by
  by_cases hfull : IsFull b
  · exact ⟨b, [], data, by rw [fillWriteBuffer, if_pos hfull], rfl, (List.append_nil _).symm⟩
  · obtain ⟨first, hfirst, hcontents⟩ := contents_fillToTop (hfit hfull)
    obtain ⟨hend, hlength⟩ := chunkSize_fits hfull (hfit hfull)
    have hsize : chunkSize (fillToTop b data).1 (fillToTop b data).2 ≤ (fillToTop b data).2.length := by
      unfold chunkSize
      split_ifs <;> omega
    refine ⟨_, first ++ (fillToTop b data).2.take (chunkSize (fillToTop b data).1 (fillToTop b data).2),
      _, (if_neg hfull).trans (if_pos hend), ?_, ?_⟩
    · rw [List.append_assoc, List.take_append_drop, ← hfirst]
    · rw [CircularBuffer.contents_push _ _ (by rw [List.length_take]; omega)
        (by rw [List.length_take]; omega), hcontents, List.append_assoc]

theorem flushWriteBuffer_spec (st : WriteState) {result : WriteResult} (h : result ≠ .failed) :
    ∃ ret st', flushWriteBuffer st result = some (ret, st') ∧
      st'.sent ++ st'.netbuf.contents = st.sent ++ st.netbuf.contents := by
  by_cases hempty : st.netbuf.tail = st.netbuf.head ∨ st.writeFd = -1
  · exact ⟨0, st, if_pos hempty, rfl⟩
  · cases result with
    | notWritable => exact ⟨0, st, if_neg hempty, rfl⟩
    | failed => exact absurd rfl h
    | wrote count =>
      by_cases hpos : 0 < min count (maxwrite st.netbuf)
      · refine ⟨_, _, (if_neg hempty).trans (if_pos hpos), ?_⟩
        have hhead := st.netbuf.head_lt
        have htail := st.netbuf.tail_lt
        have hchunk : st.netbuf.head + maxwrite st.netbuf ≤ NET_BUFSIZE ∧
            maxwrite st.netbuf ≤ st.netbuf.length := by
          unfold maxwrite CircularBuffer.length
          split_ifs <;> omega
        dsimp only
        rw [List.append_assoc, ← CircularBuffer.contents_eq_slice_append_pop _ _
          (by omega) (by omega)]
      · exact ⟨0, st, (if_neg hempty).trans (if_neg hpos), rfl⟩

/-- A pass that meets its condition moves a front part of the data behind the bytes already sent
and queued. -/
theorem writePass_spec {st : WriteState} {data : List UInt8} {result : WriteResult}
    (h : PassMeets st data result) :
    ∃ st' taken rest, writePass st data result = some (st', rest) ∧ data = taken ++ rest ∧
      st'.sent ++ st'.netbuf.contents = st.sent ++ st.netbuf.contents ++ taken := by
  obtain ⟨b', taken, rest, hfill, hdata, hcontents⟩ := fillWriteBuffer_spec h.1
  obtain ⟨ret, st', hflush, hsent⟩ := flushWriteBuffer_spec { st with netbuf := b' } h.2
  refine ⟨st', taken, rest, ?_, hdata, ?_⟩
  · simp [writePass, hfill, hflush]
  · rw [hsent, hcontents, List.append_assoc]

theorem writeLoop_spec {st : WriteState} {data : List UInt8} {results : List WriteResult}
    (h : LoopMeets st data results) :
    ∃ st' taken rest, writeLoop st data results = some (st', rest) ∧ data = taken ++ rest ∧
      st'.sent ++ st'.netbuf.contents = st.sent ++ st.netbuf.contents ++ taken := by
  induction h with
  | @done st results =>
    exact ⟨st, [], [], writeLoop_nil st results, rfl, (List.append_nil _).symm⟩
  | @pass st data results hdata hmeets _ ih =>
    obtain ⟨st₁, taken, rest, hpass, rfl, hsent⟩ := writePass_spec hmeets
    rw [writeLoop_of_pass hdata hpass]
    by_cases hfull : IsFull st₁.netbuf
    · exact ⟨st₁, taken, rest, if_pos hfull, rfl, hsent⟩
    · obtain ⟨st', more, left, hloop, rfl, hmore⟩ := ih st₁ rest hpass hfull
      refine ⟨st', taken ++ more, left, (if_neg hfull).trans hloop, ?_, ?_⟩
      · rw [List.append_assoc]
      · rw [hmore, hsent, List.append_assoc _ taken more]

/-! ### Runs of calls -/

/-- One call of `buffered_write` on the connected socket, with the answers to its flushes. -/
structure WriteCall where
  data : List UInt8
  results : List WriteResult

/-- A run of calls on the descriptor `fd`: what each call returned and the state left. -/
def bufferedWrites (fd : ℕ) : List WriteCall → WriteState → Option (List ℤ × WriteState)
  | [], st => some ([], st)
  | call :: calls, st => do
    let (ret, st') ← bufferedWrite st fd call.data call.results
    let (rets, final) ← bufferedWrites fd calls st'
    return (ret :: rets, final)

/-- The bytes a run accepted, counted by the return values of its calls. -/
def accepted : List WriteCall → List ℤ → List UInt8
  | call :: calls, ret :: rets => call.data.take ret.toNat ++ accepted calls rets
  | _, _ => []

/-- Every pass of every call of a run meets `PassMeets`. -/
def RunMeets (fd : ℕ) : List WriteCall → WriteState → Prop
  | [], _ => True
  | call :: calls, st =>
    LoopMeets { st with writeFd := fd } call.data call.results ∧
      ∀ ret st', bufferedWrite st fd call.data call.results = some (ret, st') →
        RunMeets fd calls st'

/-- The write buffer is a queue along a run: no position leaves the array, each call returns a
count within its data, the bytes sent followed by the bytes queued are the bytes accepted, and
`write_buffer_len` is the number accepted and not yet sent. -/
def IsWriteFifo (fd : ℕ) (calls : List WriteCall) : Prop :=
  ∃ rets st, bufferedWrites fd calls WriteState.initial = some (rets, st) ∧
    List.Forall₂ (fun call ret ↦ 0 ≤ ret ∧ ret ≤ (call.data.length : ℤ)) calls rets ∧
    st.sent ++ st.netbuf.contents = accepted calls rets ∧
    writeBufferLen st + st.sent.length = (accepted calls rets).length

theorem bufferedWrite_spec {fd : ℕ} {st : WriteState} {call : WriteCall}
    (h : LoopMeets { st with writeFd := fd } call.data call.results) :
    ∃ (count : ℕ) (st' : WriteState),
      bufferedWrite st fd call.data call.results = some ((count : ℤ), st') ∧
      count ≤ call.data.length ∧
      st'.sent ++ st'.netbuf.contents =
        st.sent ++ st.netbuf.contents ++ call.data.take count := by
  obtain ⟨st', taken, rest, hloop, hdata, hsent⟩ := writeLoop_spec h
  refine ⟨taken.length, st', ?_, by simp [hdata], by simpa [hdata] using hsent⟩
  have hfd : ¬ (fd : ℤ) < 0 := by omega
  rw [bufferedWrite, if_neg hfd, hloop, Option.map_some, hdata, List.length_append]
  simp

/-- The run lemma from any state of the buffer. -/
theorem bufferedWrites_spec {fd : ℕ} {calls : List WriteCall} {st : WriteState}
    (h : RunMeets fd calls st) :
    ∃ rets st', bufferedWrites fd calls st = some (rets, st') ∧
      List.Forall₂ (fun call ret ↦ 0 ≤ ret ∧ ret ≤ (call.data.length : ℤ)) calls rets ∧
      st'.sent ++ st'.netbuf.contents = st.sent ++ st.netbuf.contents ++ accepted calls rets := by
  induction calls generalizing st with
  | nil => exact ⟨[], st, rfl, .nil, (List.append_nil _).symm⟩
  | cons call calls ih =>
    obtain ⟨count, st₁, hcall, hcount, hsent⟩ := bufferedWrite_spec h.1
    obtain ⟨rets, st', hrun, hrets, hrest⟩ := ih (h.2 _ _ hcall)
    refine ⟨count :: rets, st', by simp [bufferedWrites, hcall, hrun], .cons (by omega) hrets, ?_⟩
    rw [hrest, hsent, accepted, Int.toNat_natCast, List.append_assoc _ (call.data.take count)]

theorem bufferedWrites_fifo (fd : ℕ) (calls : List WriteCall)
    (h : RunMeets fd calls WriteState.initial) : IsWriteFifo fd calls := by
  obtain ⟨rets, st, hrun, hrets, hsent⟩ := bufferedWrites_spec h
  have hqueue : st.sent ++ st.netbuf.contents = accepted calls rets := hsent
  refine ⟨rets, st, hrun, hrets, hqueue, ?_⟩
  rw [writeBufferLen_eq, ← hqueue, List.length_append, Nat.add_comm]

/-- The condition holds of a short call whose first flush writes a part. -/
theorem bufferedWrites_fifo_partial :
    IsWriteFifo 3 [⟨[72, 105, 10], [.wrote 2, .notWritable]⟩] := by
  refine bufferedWrites_fifo 3 _ ⟨.pass (by simp) ⟨fun _ _ ↦ by decide, by simp⟩ ?_, ?_⟩
  · intro st' rest hpass _
    have hrest : (writePass { WriteState.initial with writeFd := (3 : ℕ) } [72, 105, 10]
        (.wrote 2)).map Prod.snd = some [] := by rfl
    have hnil : some rest = some [] := by
      rw [← hrest]
      exact (congrArg (Option.map Prod.snd) hpass).symm
    rw [Option.some.inj hnil]
    exact .done
  · intro _ _ _
    trivial

/-- A fill that ends exactly at the end of the array, with `write_curpos` at its start, leaves the
full array looking empty. -/
theorem fillWriteBuffer_onto_start {b : CircularBuffer UInt8 NET_BUFSIZE} {data : List UInt8}
    (hfull : ¬ IsFull b) (hhead : b.head = 0) (hdata : b.tail + data.length = NET_BUFSIZE) :
    ∃ b', fillWriteBuffer b data = some (b', []) ∧ b'.head = 0 ∧ b'.tail = 0 := by
  have hpos : 0 < NET_BUFSIZE := lt_of_le_of_lt (Nat.zero_le _) b.tail_lt
  have htop : NET_BUFSIZE ≤ b.tail + data.length ∧ b.head ≤ b.tail := by omega
  have hall : NET_BUFSIZE - b.tail = data.length := by omega
  have hfill : fillToTop b data = (b.push data, []) := by
    rw [fillToTop, if_pos htop, hall, List.take_length, List.drop_length]
  have htail : (b.push data).tail = 0 := by
    simp [CircularBuffer.advance, hdata]
  have hchunk : chunkSize (b.push data) [] = 0 := by simp [chunkSize]
  refine ⟨(b.push data).push [], ?_, hhead, ?_⟩
  · simp only [fillWriteBuffer, if_neg hfull, hfill, hchunk, htail, Nat.add_zero, if_pos hpos]
    rfl
  · rw [CircularBuffer.push_tail, htail]
    exact if_pos hpos

/-- A first call of `NET_BUFSIZE` bytes on a socket that is not writable loses every byte. -/
theorem bufferedWrites_not_fifo :
    ¬ IsWriteFifo 3 [⟨List.replicate NET_BUFSIZE 0, []⟩] := by
  rintro ⟨rets, st, hrun, -, hqueue, -⟩
  have hdata : List.replicate NET_BUFSIZE (0 : UInt8) ≠ [] := by
    rw [ne_eq, List.replicate_eq_nil_iff]
    decide
  obtain ⟨b', hfill, hhead, htail⟩ := @fillWriteBuffer_onto_start WriteState.initial.netbuf
    (List.replicate NET_BUFSIZE 0) (by decide) rfl (by simp [WriteState.initial])
  have hpass : writePass { WriteState.initial with writeFd := (3 : ℕ) }
      (List.replicate NET_BUFSIZE 0) .notWritable =
        some (⟨b', (3 : ℕ), []⟩, []) := by
    simp only [writePass, hfill, Option.bind_eq_bind, Option.bind_some]
    simp [flushWriteBuffer, hhead, htail, WriteState.initial]
  have hfull : ¬ IsFull b' := by
    simp [IsFull, hhead, htail, NET_BUFSIZE]
  have hcall : bufferedWrite WriteState.initial (3 : ℕ) (List.replicate NET_BUFSIZE 0) [] =
      some ((NET_BUFSIZE : ℤ), ⟨b', (3 : ℕ), []⟩) := by
    have hloop := @writeLoop_of_pass _ _ _ _ [] hdata hpass
    rw [if_neg hfull, writeLoop_nil] at hloop
    rw [bufferedWrite, if_neg (by decide), hloop]
    simp
  simp only [bufferedWrites, hcall, Option.bind_eq_bind, Option.bind_some, Option.pure_def,
    Option.some.injEq, Prod.mk.injEq] at hrun
  obtain ⟨rfl, rfl⟩ := hrun
  have hempty : b'.contents = [] := (CircularBuffer.contents_eq_nil_iff b').mpr (by rw [hhead, htail])
  have hlength := congrArg List.length hqueue
  simp only [hempty, accepted, Int.toNat_natCast, List.take_replicate, List.length_append,
    List.length_replicate, List.length_nil, Nat.min_self, Nat.add_zero] at hlength
  exact absurd hlength (by decide)

end BlitzedServices.Sockutil
