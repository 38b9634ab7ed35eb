import BlitzedServices.Lib.CBuffer

/-!
# Messages from the server

`process` takes a line apart: the source after a leading colon, the command, and the parameters, which
`split_buf` cuts in place. The tokens are pointers into the line; the array that holds them grows by eight
whenever it is full, and a store past its end is the outcome `none`.

`splitBuf_renderParams` shows that cutting a rendered parameter list gives that list back, for any number of
parameters, and `process_renderLine` the same for a whole line.
-/

set_option autoImplicit false
set_option relaxedAutoImplicit false

namespace BlitzedServices.Process

open Lib

/-! ### Parameters -/

/-- The variables of `split_buf`. A `buf` of `none` is the constant `""`. -/
structure SplitState where
  mem : List Char
  buf : Option ℕ
  argvsize : ℕ
  argv : List ℕ

/-- `if (argc == argvsize)` the array grows by eight. -/
def SplitState.grow (st : SplitState) : SplitState :=
  if st.argv.length = st.argvsize then { st with argvsize := st.argvsize + 8 } else st

/-- `(*argv)[argc++] = arg`. -/
def SplitState.store (st : SplitState) (arg : ℕ) : Option SplitState :=
  if st.argv.length < st.argvsize then some { st with argv := st.argv ++ [arg] } else none

/-- The loop of `split_buf`. -/
def splitBufLoop : ℕ → SplitState → Option SplitState
  | 0, _ => none
  | fuel + 1, st =>
    match st.buf with
    | none => some st
    | some buf =>
      match st.mem[buf]? with
      | none => none
      | some c =>
        if c = nul then some st
        else if c = ':' then
          (st.grow.store (buf + 1)).bind fun st ↦ splitBufLoop fuel { st with buf := none }
        else
          match strpbrk (strAt st.mem buf) ' ' with
          | some i =>
            let mem := st.mem.set (buf + i) nul
            (st.grow.store buf).bind fun st ↦
              splitBufLoop fuel { st with mem, buf := some (skipSpace mem (buf + i + 1)) }
          | none =>
            (st.grow.store buf).bind fun st ↦
              splitBufLoop fuel { st with buf := some (buf + (strAt st.mem buf).length) }

/-- `split_buf` at a position of a buffer: the buffer left, the argument count and the arguments. -/
def splitBuf (mem : List Char) (buf : ℕ) : Option (List Char × ℕ × List ℕ) :=
  (splitBufLoop (mem.length + 1) ⟨mem, some buf, 8, []⟩).map fun st ↦
    (st.mem, st.argv.length, st.argv)

/-! ### Lines -/

/-- What `find_message` and the handler it finds are called with. -/
structure Received where
  source : CString
  cmd : CString
  ac : ℕ
  av : List CString
  deriving DecidableEq

/-- What becomes of a line. -/
inductive Outcome
  | dropped
  | received (message : Received)
  deriving DecidableEq

/-- The source of a line and what stands behind it; `none` for a source with nothing behind it. -/
def splitSource (buf : CString) : Option (CString × CString) :=
  if buf.head? = some ':' then
    (strpbrk buf ' ').map fun i ↦
      (strscpy (buf.take i).tail 64, (buf.drop (i + 1)).dropWhile isspace)
  else some ([], buf)

/-- The command and what stands behind it. -/
def splitCommand (buf : CString) : CString × CString :=
  match strpbrk buf ' ' with
  | some i => (strscpy (buf.take i) 64, (buf.drop (i + 1)).dropWhile isspace)
  | none => (strscpy buf 64, [])

/-- `process` on the line read. -/
def process (inbuf : CString) : Option Outcome :=
  let bufptr := if inbuf.head? = some '\xff' then inbuf.tail else inbuf
  match splitSource (strscpy bufptr 512) with
  | none => some .dropped
  | some (source, buf) =>
    if buf = [] then some .dropped
    else
      let (cmd, s) := splitCommand buf
      (splitBuf (s ++ [nul]) 0).map fun (mem, ac, av) ↦
        .received ⟨source, cmd, ac, av.map (strAt mem)⟩

/-! ### Rendering -/

/-- A parameter that is not the last: some text without white space that does not start with a colon. -/
structure IsParam (p : CString) : Prop where
  ne_nil : p ≠ []
  isspace_eq_false : ∀ c ∈ p, isspace c = false
  head_ne_colon : p.head? ≠ some ':'
  nul_not_mem : nul ∉ p

/-- `p1 ... pn-1 :pn`. -/
def renderParams (params : List CString) (text : CString) : CString :=
  params.foldr (fun p rest ↦ p ++ ' ' :: rest) (':' :: text)

/-- `:source CMD p1 ... pn-1 :pn`. -/
def renderLine (source cmd : CString) (params : List CString) (text : CString) : CString :=
  ':' :: (source ++ ' ' :: (cmd ++ ' ' :: renderParams params text))

/-- The rendered parameters as `split_buf` leaves them: every space behind a parameter is a NUL. -/
def cutParams (params : List CString) (text : CString) : List Char :=
  params.foldr (fun p rest ↦ p ++ nul :: rest) (':' :: text)

/-- Where the parameters start, the first of them at `start`. -/
def paramStarts (start : ℕ) : List CString → List ℕ
  | [] => [start + 1]
  | p :: params => start :: paramStarts (start + p.length + 1) params

/-! ### Cutting what was rendered -/

section

variable {params : List CString} {p text : CString} {pre post : List Char}

theorem IsParam.exists_cons (h : IsParam p) : ∃ c p', p = c :: p' ∧ isspace c = false ∧ c ≠ ':' := by
  cases p with
  | nil => exact absurd rfl h.ne_nil
  | cons c p' =>
    refine ⟨c, p', rfl, h.isspace_eq_false c (List.mem_cons_self ..), ?_⟩
    rintro rfl
    exact h.head_ne_colon rfl

theorem IsParam.space_not_mem (h : IsParam p) : ' ' ∉ p := by
  intro hmem
  exact absurd (h.isspace_eq_false ' ' hmem) (by decide)

/-- No white space stands in front of rendered parameters. -/
theorem head_renderParams (hparams : ∀ p ∈ params, IsParam p) (text : CString) :
    ∃ c rest, renderParams params text = c :: rest ∧ isspace c = false := by
  cases params with
  | nil => exact ⟨':', text, rfl, by decide⟩
  | cons p params =>
    obtain ⟨c, p', rfl, hspace, -⟩ := (hparams p (List.mem_cons_self ..)).exists_cons
    exact ⟨c, _, rfl, hspace⟩

theorem nul_not_mem_renderParams (hparams : ∀ p ∈ params, IsParam p) (htext : nul ∉ text) :
    nul ∉ renderParams params text := by
  induction params with
  | nil =>
    rw [renderParams, List.foldr_nil, List.mem_cons, not_or]
    exact ⟨by decide, htext⟩
  | cons p params ih =>
    obtain ⟨hp, hrest⟩ := List.forall_mem_cons.mp hparams
    rw [renderParams, List.foldr_cons, List.mem_append, List.mem_cons, not_or, not_or]
    exact ⟨hp.nul_not_mem, by decide, ih hrest⟩

/-- There is always room for the next argument. -/
theorem store_grow (st : SplitState) (hroom : st.argv.length ≤ st.argvsize) (arg : ℕ) :
    ∃ size, st.argv.length + 1 ≤ size ∧
      st.grow.store arg = some ⟨st.mem, st.buf, size, st.argv ++ [arg]⟩ := by
  by_cases hfull : st.argv.length = st.argvsize
  · refine ⟨st.argvsize + 8, by omega, ?_⟩
    rw [SplitState.grow, if_pos hfull, SplitState.store, if_pos (by dsimp only; omega)]
  · refine ⟨st.argvsize, by omega, ?_⟩
    rw [SplitState.grow, if_neg hfull, SplitState.store, if_pos (by omega)]

/-- One turn of the loop cuts off a parameter. -/
theorem splitBufLoop_param (pre post : List Char) (hp : IsParam p) {rest : CString} (hnul : nul ∉ rest)
    (hhead : ∃ c rest', rest = c :: rest' ∧ isspace c = false) {size : ℕ} {argv : List ℕ}
    (hroom : argv.length ≤ size) (fuel : ℕ) :
    ∃ size', argv.length + 1 ≤ size' ∧
      splitBufLoop (fuel + 1) ⟨pre ++ (p ++ ' ' :: rest ++ nul :: post), some pre.length, size, argv⟩ =
        splitBufLoop fuel ⟨(pre ++ (p ++ [nul])) ++ (rest ++ nul :: post),
          some (pre ++ (p ++ [nul])).length, size', argv ++ [pre.length]⟩ := by
  obtain ⟨c, p', hcons, -, hcolon⟩ := hp.exists_cons
  obtain ⟨d, rest', hrest, hd⟩ := hhead
  set mem := pre ++ (p ++ ' ' :: rest ++ nul :: post) with hmem
  obtain ⟨size', hsize', hstore⟩ := store_grow ⟨mem, some pre.length, size, argv⟩ hroom pre.length
  refine ⟨size', hsize', ?_⟩
  have hc : c ≠ nul := by
    rintro rfl
    exact hp.nul_not_mem (hcons ▸ List.mem_cons_self ..)
  have hfirst : mem[pre.length]? = some c := by simp [hmem, hcons]
  have hline : nul ∉ p ++ ' ' :: rest := by
    rw [List.mem_append, List.mem_cons, not_or, not_or]
    exact ⟨hp.nul_not_mem, by decide, hnul⟩
  have hstr : strAt mem pre.length = p ++ ' ' :: rest := strAt_length_append hline pre post
  have hspaceAt : strpbrk (strAt mem pre.length) ' ' = some p.length := by
    rw [hstr, strpbrk_append_cons hp.space_not_mem]
  have hset : mem.set (pre.length + p.length) nul = (pre ++ (p ++ [nul])) ++ (rest ++ nul :: post) := by
    simp [hmem]
  have hnext : (mem.set (pre.length + p.length) nul)[pre.length + p.length + 1]? = some d := by
    rw [hset, hrest, List.getElem?_append_right (by simp [add_assoc])]
    simp [add_assoc]
  have hskip : skipSpace (mem.set (pre.length + p.length) nul) (pre.length + p.length + 1) =
      (pre ++ (p ++ [nul])).length := by
    rw [skipSpace_of_not_isspace hnext hd]
    simp [add_assoc]
  rw [hset] at hskip
  rw [splitBufLoop]
  simp only [hfirst, if_neg hc, if_neg hcolon, hspaceAt, hstore, Option.bind_some, hset, hskip]

/-- The last turn takes everything behind the colon. -/
theorem splitBufLoop_text {size : ℕ} {argv : List ℕ} (hroom : argv.length ≤ size) (fuel : ℕ) :
    ∃ size', splitBufLoop (fuel + 2) ⟨pre ++ (':' :: text ++ nul :: post), some pre.length, size, argv⟩ =
      some ⟨pre ++ (':' :: text ++ nul :: post), none, size', argv ++ [pre.length + 1]⟩ := by
  obtain ⟨size', -, hstore⟩ := store_grow
    ⟨pre ++ (':' :: text ++ nul :: post), some pre.length, size, argv⟩ hroom (pre.length + 1)
  refine ⟨size', ?_⟩
  have hfirst : (pre ++ (':' :: text ++ nul :: post))[pre.length]? = some ':' := by simp
  have hcolon : ':' ≠ nul := by decide
  rw [splitBufLoop]
  simp only [hfirst, if_neg hcolon, if_pos, hstore, Option.bind_some]
  rw [splitBufLoop]

/-- The loop cuts off all parameters, one after the other. -/
theorem splitBufLoop_renderParams (pre post : List Char) (hparams : ∀ p ∈ params, IsParam p) (htext : nul ∉ text) {size : ℕ}
    {argv : List ℕ} (hroom : argv.length ≤ size) {fuel : ℕ} (hfuel : params.length + 2 ≤ fuel) :
    ∃ size', splitBufLoop fuel
        ⟨pre ++ (renderParams params text ++ nul :: post), some pre.length, size, argv⟩ =
      some ⟨pre ++ (cutParams params text ++ nul :: post), none, size',
        argv ++ paramStarts pre.length params⟩ := by
  induction params generalizing pre size argv fuel with
  | nil =>
    obtain ⟨fuel, rfl⟩ := Nat.exists_eq_add_of_le hfuel
    rw [List.length_nil, zero_add, add_comm]
    exact splitBufLoop_text hroom fuel
  | cons p params ih =>
    obtain ⟨hp, hrest⟩ := List.forall_mem_cons.mp hparams
    obtain ⟨fuel, rfl⟩ : ∃ fuel', fuel = fuel' + 1 := ⟨fuel - 1, by omega⟩
    obtain ⟨size₁, hsize₁, hstep⟩ := splitBufLoop_param pre post hp
      (nul_not_mem_renderParams hrest htext) (head_renderParams hrest text) hroom fuel
    have hroom₁ : (argv ++ [pre.length]).length ≤ size₁ := by simpa using hsize₁
    have hfuel₁ : params.length + 2 ≤ fuel := by
      rw [List.length_cons] at hfuel
      omega
    obtain ⟨size₂, hloop⟩ := ih (pre ++ (p ++ [nul])) hrest hroom₁ hfuel₁
    refine ⟨size₂, hstep.trans (hloop.trans ?_)⟩
    simp [cutParams, paramStarts, add_assoc]

/-- Behind the cuts stand the parameters and the text. -/
theorem map_strAt_cutParams (pre post : List Char) (hparams : ∀ p ∈ params, IsParam p) (htext : nul ∉ text) :
    (paramStarts pre.length params).map (strAt (pre ++ (cutParams params text ++ nul :: post))) =
      params ++ [text] := by
  induction params generalizing pre with
  | nil =>
    have htextAt := strAt_length_append htext (pre ++ [':']) post
    simpa [paramStarts, cutParams] using htextAt
  | cons p params ih =>
    obtain ⟨hp, hrest⟩ := List.forall_mem_cons.mp hparams
    have hparam := strAt_length_append hp.nul_not_mem pre (cutParams params text ++ nul :: post)
    have hothers := ih (pre ++ (p ++ [nul])) hrest
    rw [paramStarts, List.map_cons, List.cons_append]
    congr 1
    · simpa [cutParams] using hparam
    · simpa [cutParams, add_assoc] using hothers

theorem length_paramStarts (start : ℕ) (params : List CString) :
    (paramStarts start params).length = params.length + 1 := by
  induction params generalizing start with
  | nil => rfl
  | cons p params ih => rw [paramStarts, List.length_cons, ih, List.length_cons]

theorem length_le_renderParams (hparams : ∀ p ∈ params, IsParam p) (text : CString) :
    params.length + 1 ≤ (renderParams params text).length := by
  induction params with
  | nil => simp [renderParams]
  | cons p params ih =>
    have hrest := ih (List.forall_mem_cons.mp hparams).2
    rw [renderParams, List.foldr_cons, List.length_append, List.length_cons, List.length_cons]
    rw [renderParams] at hrest
    omega

/-- What `split_buf` finds in rendered parameters, at the start of a buffer. -/
theorem splitBuf_renderParams (hparams : ∀ p ∈ params, IsParam p) (htext : nul ∉ text)
    (post : List Char) :
    ∃ mem argv, splitBuf (renderParams params text ++ nul :: post) 0 =
        some (mem, params.length + 1, argv) ∧
      argv.map (strAt mem) = params ++ [text] := by
  have hfuel : params.length + 2 ≤ (renderParams params text ++ nul :: post).length + 1 := by
    have hlength := length_le_renderParams hparams text
    rw [List.length_append, List.length_cons]
    omega
  obtain ⟨size, hloop⟩ := splitBufLoop_renderParams [] post hparams htext
    (show ([] : List ℕ).length ≤ 8 from Nat.zero_le 8) hfuel
  refine ⟨cutParams params text ++ nul :: post, paramStarts 0 params, ?_, ?_⟩
  · rw [splitBuf]
    rw [List.nil_append, List.length_nil] at hloop
    rw [hloop, Option.map_some]
    simp only [List.nil_append, length_paramStarts]
  · exact map_strAt_cutParams [] post hparams htext

theorem dropWhile_isspace_renderParams (hparams : ∀ p ∈ params, IsParam p) (text : CString) :
    (renderParams params text).dropWhile isspace = renderParams params text := by
  obtain ⟨c, rest, hrender, hspace⟩ := head_renderParams hparams text
  rw [hrender, List.dropWhile_cons_of_neg (by simp [hspace])]

end

/-! ### Whole lines -/

section

variable {source cmd rest : CString} {params : List CString} {text : CString}

theorem splitSource_colon (hsource : ' ' ∉ source) :
    splitSource (':' :: (source ++ ' ' :: rest)) = some (strscpy source 64, rest.dropWhile isspace) := by
  have hcolon : ' ' ∉ ':' :: source := by
    rw [List.mem_cons, not_or]
    exact ⟨by decide, hsource⟩
  have hspaceAt := strpbrk_append_cons hcolon rest
  rw [List.cons_append] at hspaceAt
  rw [splitSource, if_pos List.head?_cons, hspaceAt]
  simp

theorem splitCommand_append (hcmd : ' ' ∉ cmd) :
    splitCommand (cmd ++ ' ' :: rest) = (strscpy cmd 64, rest.dropWhile isspace) := by
  rw [splitCommand, strpbrk_append_cons hcmd]
  simp

/-- A rendered line within the limit of 512 bytes is taken apart into what it was rendered from, with its
exact number of parameters; and so is a rendered parameter list of any length wherever it stands in a
buffer. Source and command are cut to the 63 characters their buffers hold. -/
theorem process_renderLine (hsource : ' ' ∉ source) (hcmd : cmd ≠ [])
    (hcmdspace : ∀ c ∈ cmd, isspace c = false) (hparams : ∀ p ∈ params, IsParam p) (htext : nul ∉ text) :
    (∀ post, ∃ mem argv, splitBuf (renderParams params text ++ nul :: post) 0 =
        some (mem, (params ++ [text]).length, argv) ∧ argv.map (strAt mem) = params ++ [text]) ∧
    ((renderLine source cmd params text).length < 512 →
      process (renderLine source cmd params text) =
        some (.received ⟨strscpy source 64, strscpy cmd 64, (params ++ [text]).length, params ++ [text]⟩)) := by
  have hlength : (params ++ [text]).length = params.length + 1 := by simp
  rw [hlength]
  refine ⟨splitBuf_renderParams hparams htext, fun hlimit ↦ ?_⟩
  obtain ⟨c, cmd', hcons⟩ := List.exists_cons_of_ne_nil hcmd
  have hspace : ' ' ∉ cmd := fun h ↦ absurd (hcmdspace ' ' h) (by decide)
  have hfits : strscpy (renderLine source cmd params text) 512 = renderLine source cmd params text := by
    rw [strscpy, List.take_of_length_le (by omega)]
  have hsplit : splitSource (renderLine source cmd params text) =
      some (strscpy source 64, cmd ++ ' ' :: renderParams params text) := by
    rw [renderLine, splitSource_colon hsource, hcons, List.cons_append, List.dropWhile_cons_of_neg]
    rw [hcmdspace c (hcons ▸ List.mem_cons_self ..)]
    exact Bool.false_ne_true
  have hcommand : splitCommand (cmd ++ ' ' :: renderParams params text) =
      (strscpy cmd 64, renderParams params text) := by
    rw [splitCommand_append hspace, dropWhile_isspace_renderParams hparams]
  have hmessage : cmd ++ ' ' :: renderParams params text ≠ [] := by simp
  obtain ⟨mem, argv, hbuf, hargv⟩ := splitBuf_renderParams hparams htext []
  have hfirst : (renderLine source cmd params text).head? ≠ some '\xff' := by
    simp [renderLine]
  rw [process, if_neg hfirst]
  simp only [hfits, hsplit, if_neg hmessage, hcommand, hbuf, Option.map_some, hargv]

/-- A trailing text that starts with a colon and a space, behind two parameters. -/
theorem process_renderLine_mode :
    process (renderLine ['i', 'r', 'c'] ['M', 'O', 'D', 'E'] [['#', 'c'], ['+', 'b']] [':', ' ', 'x']) =
      some (.received ⟨['i', 'r', 'c'], ['M', 'O', 'D', 'E'], 3, [['#', 'c'], ['+', 'b'], [':', ' ', 'x']]⟩) := by
  have hparams : ∀ p ∈ [['#', 'c'], ['+', 'b']], IsParam p := by
    intro p hp
    rw [List.mem_cons, List.mem_singleton] at hp
    rcases hp with rfl | rfl
    · exact ⟨by simp, by simp [isspace], by simp, by simp [nul]⟩
    · exact ⟨by simp, by simp [isspace], by simp, by simp [nul]⟩
  have hcmdspace : ∀ c ∈ ['M', 'O', 'D', 'E'], isspace c = false := by simp [isspace]
  have htext : nul ∉ [':', ' ', 'x'] := by simp [nul]
  have hlimit : (renderLine ['i', 'r', 'c'] ['M', 'O', 'D', 'E'] [['#', 'c'], ['+', 'b']]
      [':', ' ', 'x']).length < 512 := by simp [renderLine, renderParams]
  exact (process_renderLine (by simp) (by simp) hcmdspace hparams htext).2 hlimit

end

end BlitzedServices.Process
