import BlitzedServices.Sockutil.ReadBuffer

/-!
# Lines from the server

`sgets` collects the bytes of one line with `sgetc`, after a wait for the first byte that restarts
when a signal interrupts it. `sgets2` then strips the newline and a carriage return before it. A
read or write outside the caller's buffer is the outcome `none`.

The wait inside `buffered_read_one` does not restart. When a signal interrupts it on an empty array
the caller sees the end of file: `sgets` drops the bytes it has collected and returns `NULL`, or at
the first byte stores the `-1` as a character. And on a line that is a bare newline `sgets2` looks
for the carriage return before the start of the buffer. `sgets2Calls_framed` shows that without
these the lines returned are those of the stream.
-/

set_option autoImplicit false
set_option relaxedAutoImplicit false

namespace BlitzedServices.Sockutil

open Lib

/-- The newline character. -/
def newline : UInt8 := 10

/-- The carriage return character. -/
def carriageReturn : UInt8 := 13

/-- The answer to one `select()` of the wait in `sgets`. -/
inductive WaitResult
  | ready
  | timedOut
  | interrupted
  | failed

/-- The read side with `lastchar`, the character pushed back, where `none` is `EOF`. -/
structure LineState where
  read : ReadState
  lastchar : Option UInt8

/-- Nothing is pushed back before the first byte of `stream`. -/
def LineState.initial (stream : List UInt8) : LineState where
  read := .initial stream
  lastchar := none

/-- `sgetc`: the next byte, or `none` for `EOF`. -/
def sgetc (st : LineState) (s : ℤ) (results : List ReadResult) :
    Option (Option UInt8 × LineState) :=
  match st.lastchar with
  | some c => some (some c, { st with lastchar := none })
  | none => (bufferedReadOne st.read s results).map fun (c, read) ↦ (c, { st with read })

/-- The wait of `sgets` on an empty array, restarted when it is interrupted: whether the time ran
out. -/
def waitTimedOut : List WaitResult → Bool
  | [] => true
  | .interrupted :: waits => waitTimedOut waits
  | .timedOut :: _ => true
  | .ready :: _ => false
  | .failed :: _ => false

/-- The character loop of `sgets` with room for `room` more characters and `c` in hand, one list of
answers for each `sgetc`: the last character, the line and the state. `EOF` is stored as the
byte 255. -/
def sgetsLoop (s : ℤ) : ℕ → Option UInt8 → List UInt8 → LineState → List (List ReadResult) →
    Option (Option UInt8 × List UInt8 × LineState)
  | 0, c, line, st, _ => some (c, line, st)
  | room + 1, c, line, st, reads =>
    let stored := c.getD 255
    if stored = newline then some (c, line ++ [stored], st)
    else
      match sgetc st s (reads.headD []) with
      | none => none
      | some (none, st') => some (none, line ++ [stored], st')
      | some (some c', st') => sgetsLoop s room (some c') (line ++ [stored]) st' reads.tail

/-- What `sgets` and `sgets2` return. -/
inductive LineResult
  /-- `NULL`: the connection is taken to be broken. -/
  | null
  /-- `(char *)-1`: the read timed out. -/
  | timeout
  | line (text : List UInt8)

/-- `sgets` with a buffer of `len` bytes. -/
def sgets (st : LineState) (len : ℕ) (s : ℤ) (waits : List WaitResult)
    (reads : List (List ReadResult)) : Option (LineResult × LineState) :=
  if len = 0 then some (.null, st)
  else if readBufferLen st.read = 0 ∧ waitTimedOut waits then some (.timeout, st)
  else
    match sgetc st s (reads.headD []) with
    | none => none
    | some (c, st₁) =>
      (sgetsLoop s (len - 1) c [] st₁ reads.tail).map fun (last, line, st') ↦
        match last with
        | none => (.null, st')
        | some _ => (.line line, st')

/-- The trimming of `sgets2`. Each test reads the last character of the string, which lies before
the buffer when the string is empty. -/
def stripLineEnd (str : List UInt8) : Option (List UInt8) :=
  match str.getLast? with
  | none => none
  | some c =>
    let str' := if c = newline then str.dropLast else str
    match str'.getLast? with
    | none => none
    | some c' => some (if c' = carriageReturn then str'.dropLast else str')

/-- `sgets2` with a buffer of `len` bytes. -/
def sgets2 (st : LineState) (len : ℕ) (s : ℤ) (waits : List WaitResult)
    (reads : List (List ReadResult)) : Option (LineResult × LineState) :=
  match sgets st len s waits reads with
  | none => none
  | some (.line buf, st') =>
    (stripLineEnd (buf.takeWhile fun c ↦ c ≠ 0)).map fun text ↦ (.line text, st')
  | some (result, st') => some (result, st')

/-- One call of `sgets2`, with the answers to its waits and to the reads of each `sgetc`. -/
structure LineCall where
  waits : List WaitResult
  reads : List (List ReadResult)

/-- A run of calls: the lines returned, `NULL` and timeouts skipped, and the state left. -/
def sgets2Calls (s len : ℕ) : List LineCall → LineState → Option (List (List UInt8) × LineState)
  | [], st => some ([], st)
  | call :: calls, st =>
    match sgets2 st len s call.waits call.reads with
    | none => none
    | some (result, st') =>
      (sgets2Calls s len calls st').map fun (texts, final) ↦
        match result with
        | .line text => (text :: texts, final)
        | _ => (texts, final)

/-! ### The stream of lines -/

/-- The byte stream of the given lines, each ended by a newline. -/
def lineStream (texts : List (List UInt8)) : List UInt8 :=
  (texts.map fun text ↦ text ++ [newline]).flatten

/-- A line without its carriage return. -/
def stripReturn (text : List UInt8) : List UInt8 :=
  if text.getLast? = some carriageReturn then text.dropLast else text

/-- A line without newline or NUL that is shorter than a buffer of `len` bytes. -/
structure IsLine (len : ℕ) (text : List UInt8) : Prop where
  newline_not_mem : newline ∉ text
  zero_not_mem : 0 ∉ text
  length_lt : text.length < len

/-- The bytes of the stream that no call has taken. -/
def LineState.unread (st : LineState) : List UInt8 :=
  st.read.netbuf.contents ++ st.read.pending

/-- The lines returned by a run over the stream of `texts` are its first lines, each without its
line end, and the bytes not yet taken are exactly the lines after them. Once every byte is taken
they are all the lines. -/
def IsFramed (s len : ℕ) (texts : List (List UInt8)) (calls : List LineCall) : Prop :=
  ∃ taken st, sgets2Calls s len calls (.initial (lineStream texts)) =
      some ((texts.take taken).map stripReturn, st) ∧
    st.unread = lineStream (texts.drop taken) ∧ (st.unread = [] → texts.take taken = texts)

/-- The stream's errors are transient: `read()` never fails. -/
def LineCall.Transient (call : LineCall) : Prop :=
  ∀ results ∈ call.reads, .failed ∉ results

/-- Every `sgetc` of the character loop finds data at hand. -/
def SgetsLoopMeets (s : ℤ) : ℕ → Option UInt8 → LineState → List (List ReadResult) → Prop
  | 0, _, _, _ => True
  | room + 1, c, st, reads =>
    c.getD 255 = newline ∨
      (DataReady st.read (reads.headD []) ∧
        ∀ c' st', sgetc st s (reads.headD []) = some (c', st') →
          SgetsLoopMeets s room c' st' reads.tail)

/-- Every `sgetc` of a call that does not time out finds data at hand. -/
def LineCall.Meets (st : LineState) (s len : ℕ) (call : LineCall) : Prop :=
  ¬ (readBufferLen st.read = 0 ∧ waitTimedOut call.waits) →
    DataReady st.read (call.reads.headD []) ∧
      ∀ c st', sgetc st s (call.reads.headD []) = some (c, st') →
        SgetsLoopMeets s (len - 1) c st' call.reads.tail

/-- Every call of a run meets its condition. -/
def LineRunMeets (s len : ℕ) : List LineCall → LineState → Prop
  | [], _ => True
  | call :: calls, st =>
    call.Meets st s len ∧
      ∀ result st', sgets2 st len s call.waits call.reads = some (result, st') →
        LineRunMeets s len calls st'

theorem lineStream_cons (text : List UInt8) (texts : List (List UInt8)) :
    lineStream (text :: texts) = text ++ newline :: lineStream texts := by
  simp [lineStream]

theorem lineStream_eq_nil_iff (texts : List (List UInt8)) : lineStream texts = [] ↔ texts = [] := by
  cases texts with
  | nil => simp [lineStream]
  | cons text texts => simp [lineStream_cons]

/-- The test for a carriage return after the newline is gone. -/
theorem stripLineEnd_of_getLast {str : List UInt8} {c : UInt8} (h : str.getLast? = some c)
    (hc : c ≠ newline) : stripLineEnd str = some (stripReturn str) := by
  simp [stripLineEnd, stripReturn, h, hc]

theorem stripLineEnd_text {text : List UInt8} (hne : text ≠ []) (hnewline : newline ∉ text) :
    stripLineEnd text = some (stripReturn text) :=
  stripLineEnd_of_getLast (List.getLast?_eq_some_getLast hne)
    fun h ↦ hnewline (h ▸ List.getLast_mem hne)

theorem stripLineEnd_line {text : List UInt8} (hne : text ≠ []) :
    stripLineEnd (text ++ [newline]) = some (stripReturn text) := by
  simp [stripLineEnd, stripReturn, List.getLast?_eq_some_getLast hne]

theorem Delivers.unread_eq {st st' : LineState} {bytes : List UInt8}
    (h : Delivers st.read bytes st'.read) : st.unread = bytes ++ st'.unread := by
  obtain ⟨got, hqueue, -, hpending⟩ := h
  rw [LineState.unread, hpending, ← List.append_assoc, hqueue, List.append_assoc]
  rfl

/-- Assumes `read()` never fails. With data at hand `sgetc` returns the next byte. -/
theorem sgetc_spec {s : ℕ} {st : LineState} {results : List ReadResult}
    (hlast : st.lastchar = none) (hfailed : .failed ∉ results)
    (hready : DataReady st.read results) :
    ∃ c st', sgetc st s results = some (some c, st') ∧ st'.lastchar = none ∧
      st.unread = c :: st'.unread := by
  obtain ⟨c, read, hread, hdelivers⟩ := @bufferedReadOne_eq_some s _ _ hfailed hready
  refine ⟨c, { st with read }, ?_, hlast, ?_⟩
  · simp only [sgetc, hlast, hread, Option.map_some]
  · exact @Delivers.unread_eq st { st with read } [c] hdelivers

theorem failed_notMem_headD {reads : List (List ReadResult)}
    (h : ∀ results ∈ reads, .failed ∉ results) : .failed ∉ reads.headD [] := by
  cases reads with
  | nil => simp
  | cons results reads => exact h results (List.mem_cons_self ..)

theorem failed_notMem_tail {reads : List (List ReadResult)}
    (h : ∀ results ∈ reads, .failed ∉ results) : ∀ results ∈ reads.tail, .failed ∉ results :=
  fun results hmem ↦ h results (List.mem_of_mem_tail hmem)

/-- The character loop collects the text of a line and its newline, which it takes from the socket
but does not store when the text fills the buffer. -/
theorem sgetsLoop_spec {s : ℕ} {room : ℕ} {c : UInt8} {line text rest : List UInt8}
    {st : LineState} {reads : List (List ReadResult)} (hlast : st.lastchar = none)
    (hfailed : ∀ results ∈ reads, .failed ∉ results)
    (hmeets : SgetsLoopMeets s room (some c) st reads)
    (hunread : c :: st.unread = text ++ newline :: rest) (hnewline : newline ∉ text)
    (hlength : text.length ≤ room) :
    ∃ last st', sgetsLoop s room (some c) line st reads =
        some (some last, line ++ (if text.length < room then text ++ [newline] else text), st') ∧
      st'.lastchar = none ∧ st'.unread = rest := by
  induction room generalizing c line text st reads with
  | zero =>
    obtain rfl := List.eq_nil_of_length_eq_zero (Nat.le_zero.mp hlength)
    rw [List.nil_append, List.cons.injEq] at hunread
    exact ⟨c, st, by simp [sgetsLoop], hlast, hunread.2⟩
  | succ room ih =>
    cases text with
    | nil =>
      rw [List.nil_append, List.cons.injEq] at hunread
      obtain ⟨rfl, hrest⟩ := hunread
      exact ⟨newline, st, by simp [sgetsLoop], hlast, hrest⟩
    | cons d text =>
      rw [List.cons_append, List.cons.injEq] at hunread
      obtain ⟨rfl, hunread⟩ := hunread
      have hc : c ≠ newline := fun h ↦ hnewline (h ▸ List.mem_cons_self ..)
      obtain ⟨hready, hnext⟩ := hmeets.resolve_left hc
      obtain ⟨c', st₁, hget, hlast₁, hfront⟩ := @sgetc_spec s _ _ hlast
        (failed_notMem_headD hfailed) hready
      obtain ⟨last, st', hloop, hlast', hrest⟩ := @ih c' (line ++ [c]) text st₁ reads.tail hlast₁
        (failed_notMem_tail hfailed) (hnext _ _ hget) (by rw [← hfront, hunread])
        (fun hmem ↦ hnewline (List.mem_cons_of_mem _ hmem)) (by simpa using hlength)
      refine ⟨last, st', ?_, hlast', hrest⟩
      simp only [sgetsLoop, Option.getD_some, if_neg hc, hget, hloop, List.length_cons,
        Nat.add_lt_add_iff_right]
      split_ifs <;> simp

/-- The trimming of `sgets2` on what the character loop stores of a line that is not bare. -/
theorem stripLineEnd_stored {len room : ℕ} {text : List UInt8} (h : IsLine len text)
    (hne : text ≠ []) :
    stripLineEnd ((if text.length < room then text ++ [newline] else text).takeWhile
      fun c ↦ c ≠ 0) = some (stripReturn text) := by
  have htake : ∀ {str : List UInt8}, 0 ∉ str → (str.takeWhile fun c ↦ c ≠ 0) = str := by
    intro str hzero
    rw [List.takeWhile_eq_self_iff]
    exact fun c hc ↦ decide_eq_true fun heq ↦ hzero (heq ▸ hc)
  have hzero : 0 ∉ text ++ [newline] := by
    rw [List.mem_append, List.mem_singleton]
    rintro (hmem | heq)
    · exact h.zero_not_mem hmem
    · exact absurd heq (by decide)
  split_ifs
  · rw [htake hzero, stripLineEnd_line hne]
  · rw [htake h.zero_not_mem, stripLineEnd_text hne h.newline_not_mem]

/-- A call over a stream of lines either takes nothing and returns no line, or takes the first line
and returns it. -/
theorem sgets2_spec {s len : ℕ} {texts : List (List UInt8)} {call : LineCall} {st : LineState}
    (htexts : ∀ text ∈ texts, IsLine len text ∧ text ≠ []) (hcall : call.Transient)
    (hmeets : call.Meets st s len) (hlast : st.lastchar = none)
    (hunread : st.unread = lineStream texts) :
    ∃ result st', sgets2 st len s call.waits call.reads = some (result, st') ∧
      st'.lastchar = none ∧
      (((∀ text, result ≠ .line text) ∧ st'.unread = lineStream texts) ∨
        ∃ text rest, texts = text :: rest ∧ result = .line (stripReturn text) ∧
          st'.unread = lineStream rest) := by
  by_cases hlen : len = 0
  · refine ⟨.null, st, ?_, hlast, Or.inl ⟨by simp, hunread⟩⟩
    simp only [sgets2, sgets, if_pos hlen]
  · by_cases htime : readBufferLen st.read = 0 ∧ waitTimedOut call.waits
    · refine ⟨.timeout, st, ?_, hlast, Or.inl ⟨by simp, hunread⟩⟩
      simp only [sgets2, sgets, if_neg hlen, if_pos htime]
    · obtain ⟨hready, hnext⟩ := hmeets htime
      obtain ⟨c, st₁, hget, hlast₁, hfront⟩ := @sgetc_spec s _ _ hlast
        (failed_notMem_headD hcall) hready
      cases texts with
      | nil =>
        rw [hunread] at hfront
        cases hfront
      | cons text rest =>
        obtain ⟨hline, hne⟩ := htexts text (List.mem_cons_self ..)
        have hlength := hline.length_lt
        rw [hunread, lineStream_cons] at hfront
        obtain ⟨last, st', hloop, hlast', hrest⟩ := @sgetsLoop_spec s _ c [] text _ st₁ _ hlast₁
          (failed_notMem_tail hcall) (hnext _ _ hget) hfront.symm hline.newline_not_mem (by omega)
        refine ⟨.line (stripReturn text), st', ?_, hlast', Or.inr ⟨text, rest, rfl, rfl, hrest⟩⟩
        simp only [sgets2, sgets, if_neg hlen, if_neg htime, hget, hloop, Option.map_some,
          List.nil_append, stripLineEnd_stored hline hne]

/-- The run lemma from any state in front of a line. -/
theorem sgets2Calls_spec {s len : ℕ} {texts : List (List UInt8)} {calls : List LineCall}
    {st : LineState} (htexts : ∀ text ∈ texts, IsLine len text ∧ text ≠ [])
    (hcalls : ∀ call ∈ calls, call.Transient) (h : LineRunMeets s len calls st)
    (hlast : st.lastchar = none) (hunread : st.unread = lineStream texts) :
    ∃ taken st', sgets2Calls s len calls st = some ((texts.take taken).map stripReturn, st') ∧
      st'.unread = lineStream (texts.drop taken) := by
  induction calls generalizing texts st with
  | nil => exact ⟨0, st, by simp [sgets2Calls], hunread⟩
  | cons call calls ih =>
    obtain ⟨result, st₁, hcall, hlast₁, hresult⟩ :=
      sgets2_spec htexts (hcalls call (List.mem_cons_self ..)) h.1 hlast hunread
    have hrun := h.2 _ _ hcall
    have hrest : ∀ call ∈ calls, call.Transient :=
      fun call hmem ↦ hcalls call (List.mem_cons_of_mem _ hmem)
    rcases hresult with ⟨hline, hunread₁⟩ | ⟨text, rest, rfl, rfl, hunread₁⟩
    · obtain ⟨taken, st', htake, hdrop⟩ := ih htexts hrest hrun hlast₁ hunread₁
      refine ⟨taken, st', ?_, hdrop⟩
      cases result with
      | line text => exact absurd rfl (hline text)
      | null => simp only [sgets2Calls, hcall, htake, Option.map_some]
      | timeout => simp only [sgets2Calls, hcall, htake, Option.map_some]
    · obtain ⟨taken, st', htake, hdrop⟩ :=
        ih (fun text' hmem ↦ htexts text' (List.mem_cons_of_mem _ hmem)) hrest hrun hlast₁ hunread₁
      refine ⟨taken + 1, st', ?_, hdrop⟩
      simp only [sgets2Calls, hcall, htake, Option.map_some, List.take_succ_cons, List.map_cons]

/-- No line is a bare newline. -/
theorem sgets2Calls_framed (s len : ℕ) (texts : List (List UInt8)) (calls : List LineCall)
    (htexts : ∀ text ∈ texts, IsLine len text) (hcalls : ∀ call ∈ calls, call.Transient)
    (hbare : [] ∉ texts) (h : LineRunMeets s len calls (.initial (lineStream texts))) :
    IsFramed s len texts calls := by
  obtain ⟨taken, st, hrun, hunread⟩ := @sgets2Calls_spec s len texts calls _
    (fun text hmem ↦ ⟨htexts text hmem, fun hnil ↦ hbare (hnil ▸ hmem)⟩) hcalls h rfl rfl
  refine ⟨taken, st, hrun, hunread, fun hnil ↦ ?_⟩
  have hdrop : texts.drop taken = [] := (lineStream_eq_nil_iff _).mp (hunread.symm.trans hnil)
  rw [← List.take_append_drop taken texts, hdrop, List.append_nil, List.take_take, Nat.min_self]

/-- A line that arrives one byte at a time, after a wait that is interrupted and restarted. -/
theorem sgets2Calls_framed_split :
    IsFramed 3 4 [[72]] [⟨[.interrupted, .ready], [[.read 1], [.read 1]]⟩] := by
  refine sgets2Calls_framed 3 4 _ _ ?_ ?_ (by simp) ⟨fun _ ↦ ⟨?_, ?_⟩, fun _ _ _ ↦ trivial⟩
  · simpa using ⟨by decide, by decide, by decide⟩
  · simp [LineCall.Transient]
  · exact fun _ ↦ ⟨by decide, 1, by decide, rfl⟩
  · intro c st hget
    obtain ⟨rfl, rfl⟩ := Prod.mk.inj (Option.some.inj hget)
    refine Or.inr ⟨fun _ ↦ ⟨by decide, 1, by decide, rfl⟩, ?_⟩
    intro c st hget
    obtain ⟨rfl, rfl⟩ := Prod.mk.inj (Option.some.inj hget)
    exact Or.inl (by decide)

/-- A wait interrupted inside the first line drops the bytes before it. -/
theorem sgets2Calls_not_framed :
    ¬ IsFramed 3 1024 [[72, 105]]
      [⟨[.ready], [[.read 1], [.notReady]]⟩, ⟨[.ready], [[.read 9]]⟩] := by
  rintro ⟨taken, st, hrun, hunread, hall⟩
  have hlost : (sgets2Calls 3 1024 [⟨[.ready], [[.read 1], [.notReady]]⟩,
      ⟨[.ready], [[.read 9]]⟩] (.initial (lineStream [[72, 105]]))).map Prod.fst =
        some [[105]] := by rfl
  rw [hrun, Option.map_some, Option.some.injEq] at hlost
  rcases taken with _ | taken
  · cases hlost
  · simp [stripReturn, carriageReturn] at hlost

end BlitzedServices.Sockutil
