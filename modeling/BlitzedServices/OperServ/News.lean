import BlitzedServices.Lib.Runs
import BlitzedServices.Lib.Strtok

/-!
# News

Logon news and oper news are kept in one table with one sequence of ids. `do_news` lists, adds and deletes
items of one kind. `del_newsitem` deletes an item by its number and does not look at the kind, and the
number is what `atoi` reads. `newsIsolated_iff` says for which runs the kinds are kept apart: no command may
name an item of the other kind, or a number that wraps to one of its own items.
-/

set_option autoImplicit false
set_option relaxedAutoImplicit false

namespace BlitzedServices.OperServ

open Lib

/-- The kinds of news. -/
inductive NewsType where
  | NEWS_LOGON
  | NEWS_OPER
  deriving DecidableEq

/-- The name of a kind in `msgarray`. -/
def NewsType.name : NewsType → CString
  | .NEWS_LOGON => "LOGON".toList
  | .NEWS_OPER => "OPER".toList

/-- Table `news`. -/
structure NewsRow where
  newsId : ℕ
  type : NewsType
  text : CString
  who : CString
  time : ℕ
  deriving DecidableEq

/-- The rows of the table, the value of its AUTO_INCREMENT column and whether the process runs. -/
structure News where
  rows : List NewsRow
  nextId : ℕ
  alive : Bool
  deriving DecidableEq

/-- The largest value of a `mediumint(8) unsigned`. -/
def MAX_NEWS_ID : ℕ := 16777215

/-- The messages of one kind in `msgarray`, with their arguments. -/
inductive NewsMsg where
  | MSG_SYNTAX
  | MSG_LIST_HEADER
  | MSG_LIST_ENTRY (num time : ℤ) (who text : CString)
  | MSG_LIST_NONE
  | MSG_ADD_SYNTAX
  | MSG_ADD_FULL
  | MSG_ADDED (n : ℕ)
  | MSG_DEL_SYNTAX
  | MSG_DEL_NOT_FOUND (num : ℕ)
  | MSG_DELETED (num : ℕ)
  | MSG_DEL_NONE
  | MSG_DELETED_ALL
  deriving DecidableEq

/-- What a command sends: a notice, the syntax of a command, or the news to those whom it concerns. -/
inductive NewsOut where
  | notice (type : NewsType) (msg : NewsMsg)
  | syntaxError (command : CString) (type : NewsType) (msg : NewsMsg)
  | PERMISSION_DENIED
  | globalNotice (text : CString)
  | wallops (text : CString)
  deriving DecidableEq

/-- A LOGONNEWS or OPERNEWS command, with what stands behind it on the line. -/
structure NewsCommand where
  type : NewsType
  who : CString
  servadmin : Bool
  now : ℕ
  line : CString

/-! ### The sub-commands -/

/-- `syntax_error` with the name of the command. -/
def newsSyntax (type : NewsType) (msg : NewsMsg) : NewsOut :=
  .syntaxError (type.name ++ "NEWS".toList) type msg

/-- A row as it is listed: its fields come as texts. -/
def NewsRow.listEntry (r : NewsRow) : NewsMsg :=
  .MSG_LIST_ENTRY (atoi (decimal r.newsId)).toInt (atoi (decimal r.time)).toInt r.who r.text

/-- The items of a kind. -/
def News.ofType (s : News) (type : NewsType) : List NewsRow :=
  s.rows.filter fun r ↦ r.type = type

/-- `do_news_list`. -/
def doNewsList (type : NewsType) (s : News) : List NewsOut :=
  if s.ofType type = [] then [.notice type .MSG_LIST_NONE]
  else .notice type .MSG_LIST_HEADER :: (s.ofType type).map fun r ↦ .notice type r.listEntry

/-- `add_newsitem`. The text `'NULL'` is 0 for the column, which makes it count on. When the column has
counted to its end the query fails and the process quits. -/
def addNewsitem (c : NewsCommand) (text : CString) (s : News) : News × Option ℕ :=
  if 32767 ≤ s.rows.length then (s, none)
  else if s.nextId ≤ MAX_NEWS_ID then
    ({ s with rows := s.rows ++ [⟨s.nextId, c.type, text, c.who, c.now⟩], nextId := s.nextId + 1 }, some s.nextId)
  else ({ s with alive := false }, none)

/-- `notify_newsitem`. -/
def notifyNewsitem (text : CString) : NewsType → NewsOut
  | .NEWS_LOGON => .globalNotice ("[Logon News] ".toList ++ text)
  | .NEWS_OPER => .wallops ("[Oper News] ".toList ++ text)

/-- `do_news_add` for a text. -/
def addText (c : NewsCommand) (text : CString) (s : News) : News × List NewsOut :=
  let (s', n) := addNewsitem c text s
  if ¬ s'.alive then (s', [])
  else
    match n with
    | none => (s', [.notice c.type .MSG_ADD_FULL])
    | some n => (s', [notifyNewsitem text c.type, .notice c.type (.MSG_ADDED n)])

/-- `do_news_add`, with the rest of the line. -/
def doNewsAdd (c : NewsCommand) (rest : CString) (s : News) : News × List NewsOut :=
  match (strtokCall [] rest).1 with
  | none => (s, [newsSyntax c.type .MSG_ADD_SYNTAX])
  | some text => addText c text s

/-- `del_newsitem`: the rows that stay, and how many were deleted. The number 0 stands for all items of the
kind. -/
def delNewsitem (num : ℕ) (type : NewsType) (s : News) : News × ℕ :=
  let hit : NewsRow → Bool := fun r ↦ if num = 0 then r.type = type else r.newsId = num
  ({ s with rows := s.rows.filter fun r ↦ !hit r }, s.rows.countP hit)

/-- The word ALL. -/
def isAll (word : CString) : Prop :=
  stricmp word "ALL".toList = 0

instance (word : CString) : Decidable (isAll word) :=
  inferInstanceAs (Decidable (_ = _))

/-- `do_news_del` for a number or ALL. -/
def delWord (c : NewsCommand) (text : CString) (s : News) : News × List NewsOut :=
  if ¬ isAll text then
    let num := (atoi text).toNat
    if num = 0 then (s, [.notice c.type (.MSG_DEL_NOT_FOUND num)])
    else
      let (s', deleted) := delNewsitem num c.type s
      (s', [.notice c.type (if deleted ≠ 0 then .MSG_DELETED num else .MSG_DEL_NOT_FOUND num)])
  else
    let (s', deleted) := delNewsitem 0 c.type s
    (s', [.notice c.type (if deleted ≠ 0 then .MSG_DELETED_ALL else .MSG_DEL_NONE)])

/-- `do_news_del`, with the rest of the line. -/
def doNewsDel (c : NewsCommand) (rest : CString) (s : News) : News × List NewsOut :=
  match (strtokCall [' '] rest).1 with
  | none => (s, [newsSyntax c.type .MSG_DEL_SYNTAX])
  | some text => delWord c text s

/-- The sub-commands of `do_news`. -/
inductive NewsRequest where
  | LIST
  | ADD (rest : CString)
  | DEL (rest : CString)
  | unknown
  deriving DecidableEq

/-- The first word of the line, and the rest of it. -/
def NewsCommand.request (c : NewsCommand) : NewsRequest :=
  let (cmd, rest) := strtokCall [' '] c.line
  let cmd := cmd.getD []
  if stricmp cmd "LIST".toList = 0 then .LIST
  else if stricmp cmd "ADD".toList = 0 then .ADD rest
  else if stricmp cmd "DEL".toList = 0 then .DEL rest
  else .unknown

/-- `do_news`. A process that has quit does nothing. -/
def doNews (c : NewsCommand) (s : News) : News × List NewsOut :=
  if ¬ s.alive then (s, [])
  else
    match c.request with
    | .LIST => (s, doNewsList c.type s)
    | .ADD rest => if c.servadmin then doNewsAdd c rest s else (s, [.PERMISSION_DENIED])
    | .DEL rest => if c.servadmin then doNewsDel c rest s else (s, [.PERMISSION_DENIED])
    | .unknown => (s, [newsSyntax c.type .MSG_SYNTAX])

/-- The table after a command. -/
def newsStep (s : News) (c : NewsCommand) : News :=
  (doNews c s).1

/-! ### What commands are for -/

/-- The text that a services admin adds. -/
def NewsCommand.addedText (c : NewsCommand) : Option CString :=
  match c.request with
  | .ADD rest => if c.servadmin then (strtokCall [] rest).1 else none
  | _ => none

/-- The word behind DEL of a services admin. -/
def NewsCommand.deletedWord (c : NewsCommand) : Option CString :=
  match c.request with
  | .DEL rest => if c.servadmin then (strtokCall [' '] rest).1 else none
  | _ => none

/-- DEL n or DEL ALL of a kind. -/
def NewsCommand.Deletes (c : NewsCommand) (type : NewsType) (n : ℕ) : Prop :=
  c.type = type ∧ ∃ word, c.deletedWord = some word ∧ (isAll word ∨ signedValue word = n)

/-- A command does what it says to the items of its kind and nothing to the others. -/
structure Isolated (s : News) (c : NewsCommand) : Prop where
  others : ∀ type, type ≠ c.type → (newsStep s c).ofType type = s.ofType type
  lists_own : ∀ type num time who text, .notice type (.MSG_LIST_ENTRY num time who text) ∈ (doNews c s).2 →
    type = c.type ∧ ∃ r ∈ s.ofType c.type, r.listEntry = .MSG_LIST_ENTRY num time who text
  lists : c.request = .LIST → ∀ r ∈ s.ofType c.type, .notice c.type r.listEntry ∈ (doNews c s).2
  adds : ∀ text, c.addedText = some text → s.rows.length < 32767 →
    ∃ n, .notice c.type (.MSG_ADDED n) ∈ (doNews c s).2 ∧
      ⟨n, c.type, text, c.who, c.now⟩ ∈ (newsStep s c).ofType c.type
  deletes : ∀ word, c.deletedWord = some word → ¬ isAll word →
    ((∃ num, .notice c.type (.MSG_DELETED num) ∈ (doNews c s).2) ↔
      ∃ r ∈ s.ofType c.type, (r.newsId : ℤ) = signedValue word)

/-- What was added before is listed after the run, unless it was deleted. -/
def StaysListed (s : News) (run : List NewsCommand) : Prop :=
  ∀ before c after n, run = before ++ c :: after →
    .notice c.type (.MSG_ADDED n) ∈ (doNews c (before.foldl newsStep s)).2 →
      (∀ d ∈ after, ¬ d.Deletes c.type n) →
        ∃ text, c.addedText = some text ∧ ∀ reader : NewsCommand, reader.type = c.type → reader.request = .LIST →
          .notice c.type (NewsRow.listEntry ⟨n, c.type, text, c.who, c.now⟩) ∈
            (doNews reader (run.foldl newsStep s)).2

/-- The two kinds do not interfere in a run. -/
structure NewsIsolated (s : News) (run : List NewsCommand) : Prop where
  steps : Along newsStep Isolated s run
  stays : StaysListed s run

/-- The keys of the table are what its column has counted. -/
structure News.WellFormed (s : News) : Prop where
  alive : s.alive = true
  next_pos : 0 < s.nextId
  nodup : (s.rows.map NewsRow.newsId).Nodup
  pos : ∀ r ∈ s.rows, 0 < r.newsId
  lt : ∀ r ∈ s.rows, r.newsId < s.nextId
  le : ∀ r ∈ s.rows, r.newsId ≤ MAX_NEWS_ID

/-- The item with the number that is read, if there is one, is of the own kind and has the number that was
typed; and there is an id for what is added. -/
structure NamesOwn (s : News) (c : NewsCommand) : Prop where
  named : ∀ word, c.deletedWord = some word → ¬ isAll word →
    ∀ r ∈ s.rows, r.newsId = (atoi word).toNat → r.type = c.type ∧ (r.newsId : ℤ) = signedValue word
  room : ∀ text, c.addedText = some text → s.rows.length < 32767 → s.nextId ≤ MAX_NEWS_ID

/-! ### One command -/

theorem mem_ofType {s : News} {type : NewsType} {r : NewsRow} : r ∈ s.ofType type ↔ r ∈ s.rows ∧ r.type = type := by
  simp [News.ofType]

section Command

variable {s : News} {c : NewsCommand}

/-- A command lists, adds, deletes, or sends nothing but an error. -/
theorem doNews_cases (hs : s.alive = true) (c : NewsCommand) :
    (c.request = .LIST ∧ c.addedText = none ∧ c.deletedWord = none ∧ doNews c s = (s, doNewsList c.type s)) ∨
    (∃ text, c.request ≠ .LIST ∧ c.addedText = some text ∧ c.deletedWord = none ∧ doNews c s = addText c text s) ∨
    (∃ word, c.request ≠ .LIST ∧ c.addedText = none ∧ c.deletedWord = some word ∧ doNews c s = delWord c word s) ∨
    (c.request ≠ .LIST ∧ c.addedText = none ∧ c.deletedWord = none ∧
      ∃ out, doNews c s = (s, [out]) ∧ ∀ type msg, .notice type msg ≠ out) := by
  rw [doNews, if_neg (not_not.mpr hs), NewsCommand.addedText, NewsCommand.deletedWord]
  cases c.request with
  | LIST => exact .inl ⟨rfl, rfl, rfl, rfl⟩
  | ADD rest =>
    cases c.servadmin with
    | false => exact .inr (.inr (.inr ⟨by simp, rfl, rfl, _, rfl, by simp⟩))
    | true =>
      cases htext : (strtokCall [] rest).1 with
      | none =>
        refine .inr (.inr (.inr ⟨by simp, htext, rfl, newsSyntax c.type .MSG_ADD_SYNTAX, ?_, by simp [newsSyntax]⟩))
        show doNewsAdd c rest s = _
        rw [doNewsAdd, htext]
      | some text =>
        refine .inr (.inl ⟨text, by simp, htext, rfl, ?_⟩)
        show doNewsAdd c rest s = _
        rw [doNewsAdd, htext]
  | DEL rest =>
    cases c.servadmin with
    | false => exact .inr (.inr (.inr ⟨by simp, rfl, rfl, _, rfl, by simp⟩))
    | true =>
      cases hword : (strtokCall [' '] rest).1 with
      | none =>
        refine .inr (.inr (.inr ⟨by simp, rfl, hword, newsSyntax c.type .MSG_DEL_SYNTAX, ?_, by simp [newsSyntax]⟩))
        show doNewsDel c rest s = _
        rw [doNewsDel, hword]
      | some word =>
        refine .inr (.inr (.inl ⟨word, by simp, rfl, hword, ?_⟩))
        show doNewsDel c rest s = _
        rw [doNewsDel, hword]
  | unknown => exact .inr (.inr (.inr ⟨by simp, rfl, rfl, _, rfl, by simp [newsSyntax]⟩))

/-- The row that `add_newsitem` inserts. -/
def NewsCommand.row (c : NewsCommand) (text : CString) (s : News) : NewsRow :=
  ⟨s.nextId, c.type, text, c.who, c.now⟩

theorem addText_full (hs : s.alive = true) (text : CString) (hfull : 32767 ≤ s.rows.length) :
    addText c text s = (s, [.notice c.type .MSG_ADD_FULL]) := by
  rw [addText, addNewsitem, if_pos hfull]
  exact if_neg (not_not.mpr hs)

theorem addText_room (hs : s.alive = true) (text : CString) (hfull : s.rows.length < 32767)
    (hroom : s.nextId ≤ MAX_NEWS_ID) :
    addText c text s = ({ s with rows := s.rows ++ [c.row text s], nextId := s.nextId + 1 },
      [notifyNewsitem text c.type, .notice c.type (.MSG_ADDED s.nextId)]) := by
  rw [addText, addNewsitem, if_neg (not_le.mpr hfull), if_pos hroom]
  exact if_neg (not_not.mpr hs)

theorem addText_dies (text : CString) (hfull : s.rows.length < 32767) (hroom : ¬ s.nextId ≤ MAX_NEWS_ID) :
    addText c text s = ({ s with alive := false }, []) := by
  rw [addText, addNewsitem, if_neg (not_le.mpr hfull), if_neg hroom]
  rfl

/-- The reply to DEL n when it was or was not found. -/
def delReply (word : CString) (s : News) : NewsMsg :=
  if ∃ r ∈ s.rows, r.newsId = (atoi word).toNat then .MSG_DELETED (atoi word).toNat
  else .MSG_DEL_NOT_FOUND (atoi word).toNat

/-- DEL n deletes the item with the number that `atoi` reads. No item has the number 0. -/
theorem delWord_number (hs : s.WellFormed) {word : CString} (hall : ¬ isAll word) :
    delWord c word s = ({ s with rows := s.rows.filter fun r ↦ r.newsId ≠ (atoi word).toNat },
      [.notice c.type (delReply word s)]) := by
  rw [delWord, if_pos hall, delReply]
  dsimp only
  by_cases hzero : (atoi word).toNat = 0
  · have hnone : ¬ ∃ r ∈ s.rows, r.newsId = (atoi word).toNat := by
      rintro ⟨r, hr, heq⟩
      have hpos := hs.pos r hr
      omega
    have hkeep : s.rows.filter (fun r ↦ decide (r.newsId ≠ (atoi word).toNat)) = s.rows := by
      rw [List.filter_eq_self]
      exact fun r hr ↦ decide_eq_true fun heq ↦ hnone ⟨r, hr, heq⟩
    rw [if_pos hzero, if_neg hnone, hkeep]
  · rw [if_neg hzero, delNewsitem]
    simp only [if_neg hzero, decide_not, List.countP_eq_zero, ne_eq, decide_eq_true_eq, not_forall, not_not,
      exists_prop]

/-- DEL ALL deletes the items of the kind. -/
theorem delWord_all {word : CString} (hall : isAll word) :
    ∃ msg, (msg = .MSG_DELETED_ALL ∨ msg = .MSG_DEL_NONE) ∧
      delWord c word s = ({ s with rows := s.rows.filter fun r ↦ r.type ≠ c.type }, [.notice c.type msg]) := by
  rw [delWord, if_neg (not_not.mpr hall), delNewsitem]
  simp only [if_true, decide_not]
  refine ⟨_, ?_, rfl⟩
  split_ifs
  · exact .inl rfl
  · exact .inr rfl

/-- The number that stands in the word is the number that is read, if it is one of an item. -/
theorem toNat_atoi {word : CString} {n : ℕ} (hn : n ≤ MAX_NEWS_ID) (h : (n : ℤ) = signedValue word) :
    (atoi word).toNat = n := by
  have hle : n ≤ 16777215 := hn
  rw [atoi, strtol, ← h, Int.min_eq_right (by omega), Int.max_eq_right (by omega), BitVec.ofInt_natCast,
    BitVec.toNat_ofNat]
  omega

theorem mem_doNewsList {type : NewsType} {out : NewsOut} (h : out ∈ doNewsList type s) :
    out = .notice type .MSG_LIST_NONE ∨ out = .notice type .MSG_LIST_HEADER ∨
      ∃ r ∈ s.ofType type, out = .notice type r.listEntry := by
  rw [doNewsList] at h
  split_ifs at h
  · exact .inl (List.mem_singleton.mp h)
  · rcases List.mem_cons.mp h with h | h
    · exact .inr (.inl h)
    · obtain ⟨r, hr, rfl⟩ := List.mem_map.mp h
      exact .inr (.inr ⟨r, hr, rfl⟩)

theorem listEntry_mem_doNewsList {type : NewsType} {r : NewsRow} (hr : r ∈ s.ofType type) :
    .notice type r.listEntry ∈ doNewsList type s := by
  rw [doNewsList, if_neg (List.ne_nil_of_mem hr)]
  exact List.mem_cons_of_mem _ (List.mem_map_of_mem hr)

/-- A dropped row that is not of the kind would be missing. -/
theorem ofType_filter {keep : NewsRow → Bool} {type : NewsType}
    (h : ∀ r ∈ s.rows, r.type = type → keep r = true) :
    News.ofType { s with rows := s.rows.filter keep } type = s.ofType type := by
  rw [News.ofType, News.ofType, List.filter_filter]
  refine List.filter_congr fun r hr ↦ ?_
  by_cases htype : r.type = type
  · rw [h r hr htype, Bool.and_true]
  · simp [htype]

/-- A command that does nothing is isolated. -/
theorem isolated_idle (hadd : c.addedText = none) (hdel : c.deletedWord = none) (hlist : c.request ≠ .LIST)
    {out : NewsOut} (h : doNews c s = (s, [out])) (hout : ∀ type msg, .notice type msg ≠ out) : Isolated s c where
  others type _ := by rw [newsStep, h]
  lists_own type num time who text hmem := by
    rw [h] at hmem
    exact absurd (List.mem_singleton.mp hmem) (hout _ _)
  lists hrequest := absurd hrequest hlist
  adds text htext := by
    rw [hadd] at htext
    cases htext
  deletes word hword := by
    rw [hdel] at hword
    cases hword

theorem isolated_list (hadd : c.addedText = none) (hdel : c.deletedWord = none)
    (h : doNews c s = (s, doNewsList c.type s)) : Isolated s c where
  others type _ := by rw [newsStep, h]
  lists_own type num time who text hmem := by
    rw [h] at hmem
    rcases mem_doNewsList hmem with heq | heq | ⟨r, hr, heq⟩
    · simp at heq
    · simp at heq
    · obtain ⟨htype, hentry⟩ := NewsOut.notice.inj heq
      exact ⟨htype, r, hr, hentry.symm⟩
  lists _ r hr := by
    rw [h]
    exact listEntry_mem_doNewsList hr
  adds text htext := by
    rw [hadd] at htext
    cases htext
  deletes word hword := by
    rw [hdel] at hword
    cases hword

/-- ADD is isolated exactly if there is an id left. -/
theorem isolated_add_iff (hs : s.WellFormed) {text : CString} (hlist : c.request ≠ .LIST)
    (hadd : c.addedText = some text) (hdel : c.deletedWord = none) (h : doNews c s = addText c text s) :
    Isolated s c ↔ (s.rows.length < 32767 → s.nextId ≤ MAX_NEWS_ID) := by
  have hother : ∀ word, c.deletedWord = some word → False := by
    intro word hword
    rw [hdel] at hword
    cases hword
  constructor
  · intro hisolated hfull
    by_contra hroom
    obtain ⟨n, hmem, -⟩ := hisolated.adds text hadd hfull
    rw [h, addText_dies text hfull hroom] at hmem
    cases hmem
  · intro hroom
    by_cases hfull : 32767 ≤ s.rows.length
    · rw [addText_full hs.alive text hfull] at h
      refine ⟨?_, ?_, fun hrequest ↦ absurd hrequest hlist, ?_, fun word hword ↦ (hother word hword).elim⟩
      · intro type _
        rw [newsStep, h]
      · intro type num time who text hmem
        rw [h] at hmem
        simp at hmem
      · exact fun _ _ hlength ↦ absurd hlength (not_lt.mpr hfull)
    · rw [not_le] at hfull
      rw [addText_room hs.alive text hfull (hroom hfull)] at h
      refine ⟨?_, ?_, fun hrequest ↦ absurd hrequest hlist, ?_, fun word hword ↦ (hother word hword).elim⟩
      · intro type htype
        rw [newsStep, h, News.ofType, List.filter_append]
        simp [News.ofType, NewsCommand.row, htype.symm]
      · intro type num time who text hmem
        rw [h] at hmem
        cases htype : c.type <;> simp [notifyNewsitem, htype] at hmem
      · intro text' htext' _
        rw [hadd, Option.some_inj] at htext'
        subst htext'
        refine ⟨s.nextId, ?_, ?_⟩
        · rw [h]
          simp
        · rw [newsStep, h, mem_ofType]
          exact ⟨List.mem_append_right _ (List.mem_singleton_self _), rfl⟩

theorem delReply_eq_deleted {word : CString} {num : ℕ} :
    delReply word s = .MSG_DELETED num ↔
      num = (atoi word).toNat ∧ ∃ r ∈ s.rows, r.newsId = (atoi word).toNat := by
  rw [delReply]
  split_ifs with h
  · simp [h, eq_comm]
  · simp [h]

theorem isolated_del_all (hlist : c.request ≠ .LIST) (hadd : c.addedText = none) {word : CString}
    (hdel : c.deletedWord = some word) (hall : isAll word) (h : doNews c s = delWord c word s) : Isolated s c := by
  obtain ⟨msg, hmsg, hdelete⟩ := delWord_all (s := s) (c := c) hall
  rw [hdelete] at h
  refine ⟨?_, ?_, fun hrequest ↦ absurd hrequest hlist, ?_, ?_⟩
  · intro type htype
    rw [newsStep, h]
    exact ofType_filter fun r _ hr ↦ by simpa [hr] using htype
  · intro type num time who text hmem
    rw [h] at hmem
    rcases hmsg with rfl | rfl <;> simp at hmem
  · intro text htext
    rw [hadd] at htext
    cases htext
  · intro word' hword' hnot
    rw [hdel, Option.some_inj] at hword'
    exact absurd (hword' ▸ hall) hnot

/-- DEL n is isolated exactly if the item that is deleted is of the kind and has the number n. -/
theorem isolated_del_iff (hs : s.WellFormed) {word : CString} (hlist : c.request ≠ .LIST)
    (hadd : c.addedText = none) (hdel : c.deletedWord = some word) (hall : ¬ isAll word)
    (h : doNews c s = delWord c word s) :
    Isolated s c ↔ ∀ r ∈ s.rows, r.newsId = (atoi word).toNat →
      r.type = c.type ∧ (r.newsId : ℤ) = signedValue word := by
  rw [delWord_number hs hall] at h
  have hreply : (∃ num, .notice c.type (.MSG_DELETED num) ∈ (doNews c s).2) ↔
      ∃ r ∈ s.rows, r.newsId = (atoi word).toNat := by
    rw [h]
    simp only [List.mem_singleton, NewsOut.notice.injEq, true_and, eq_comm (b := delReply word s),
      delReply_eq_deleted, exists_eq_left]
  constructor
  · intro hisolated r hr hid
    have htype : r.type = c.type := by
      by_contra htype
      have hothers := hisolated.others r.type htype
      have hmem : r ∈ (newsStep s c).ofType r.type := by
        rw [hothers]
        exact mem_ofType.mpr ⟨hr, rfl⟩
      rw [newsStep, h, mem_ofType, List.mem_filter] at hmem
      exact absurd hid (of_decide_eq_true hmem.1.2)
    obtain ⟨r', hr', hvalue⟩ := (hisolated.deletes word hdel hall).mp (hreply.mpr ⟨r, hr, hid⟩)
    have hread := toNat_atoi (hs.le r' (mem_ofType.mp hr').1) hvalue
    rw [hid, hread]
    exact ⟨htype, hvalue⟩
  · intro hnamed
    refine ⟨?_, ?_, fun hrequest ↦ absurd hrequest hlist, ?_, ?_⟩
    · intro type htype
      rw [newsStep, h]
      refine ofType_filter fun r hr heq ↦ decide_eq_true fun hid ↦ htype ?_
      rw [← heq, (hnamed r hr hid).1]
    · intro type num time who text hmem
      rw [h, List.mem_singleton, NewsOut.notice.injEq, delReply] at hmem
      split_ifs at hmem <;> simp at hmem
    · intro text htext
      rw [hadd] at htext
      cases htext
    · intro word' hword' _
      rw [hdel, Option.some_inj] at hword'
      subst hword'
      rw [hreply]
      constructor
      · rintro ⟨r, hr, hid⟩
        obtain ⟨htype, hvalue⟩ := hnamed r hr hid
        exact ⟨r, mem_ofType.mpr ⟨hr, htype⟩, hvalue⟩
      · rintro ⟨r, hr, hvalue⟩
        have hrow := (mem_ofType.mp hr).1
        exact ⟨r, hrow, (toNat_atoi (hs.le r hrow) hvalue).symm⟩

/-- One command is isolated exactly if it names items of its own kind only. -/
theorem isolated_iff (hs : s.WellFormed) (c : NewsCommand) : Isolated s c ↔ NamesOwn s c := by
  rcases doNews_cases hs.alive c with ⟨-, hadd, hdel, h⟩ | ⟨text, hlist, hadd, hdel, h⟩ |
    ⟨word, hlist, hadd, hdel, h⟩ | ⟨hlist, hadd, hdel, out, h, hout⟩
  · refine iff_of_true (isolated_list hadd hdel h) ⟨?_, ?_⟩
    · simp [hdel]
    · simp [hadd]
  · rw [isolated_add_iff hs hlist hadd hdel h]
    constructor
    · exact fun hroom ↦ ⟨by simp [hdel], fun _ _ ↦ hroom⟩
    · exact fun hnames ↦ hnames.room text hadd
  · by_cases hall : isAll word
    · refine iff_of_true (isolated_del_all hlist hadd hdel hall h) ⟨?_, by simp [hadd]⟩
      intro word' hword' hnot
      rw [hdel, Option.some_inj] at hword'
      exact absurd (hword' ▸ hall) hnot
    · rw [isolated_del_iff hs hlist hadd hdel hall h]
      constructor
      · intro hnamed
        refine ⟨?_, by simp [hadd]⟩
        intro word' hword' _
        rw [hdel, Option.some_inj] at hword'
        subst hword'
        exact hnamed
      · exact fun hnames ↦ hnames.named word hdel hall
  · refine iff_of_true (isolated_idle hadd hdel hlist h hout) ⟨?_, ?_⟩
    · simp [hdel]
    · simp [hadd]

end Command

/-! ### Runs -/

theorem wellFormed_filter {s : News} (hs : s.WellFormed) (keep : NewsRow → Bool) :
    News.WellFormed { s with rows := s.rows.filter keep } where
  alive := hs.alive
  next_pos := hs.next_pos
  nodup := hs.nodup.sublist (List.filter_sublist.map _)
  pos r hr := hs.pos r (List.mem_of_mem_filter hr)
  lt r hr := hs.lt r (List.mem_of_mem_filter hr)
  le r hr := hs.le r (List.mem_of_mem_filter hr)

/-- The next id is larger than those of the table. -/
theorem wellFormed_insert {s : News} (hs : s.WellFormed) (hroom : s.nextId ≤ MAX_NEWS_ID) {row : NewsRow}
    (hrow : row.newsId = s.nextId) :
    News.WellFormed { s with rows := s.rows ++ [row], nextId := s.nextId + 1 } := by
  refine ⟨hs.alive, Nat.succ_pos _, ?_, ?_, ?_, ?_⟩
  · rw [List.map_append, List.nodup_append]
    refine ⟨hs.nodup, List.nodup_singleton _, ?_⟩
    intro id hid id' hid' heq
    obtain ⟨r, hr, rfl⟩ := List.mem_map.mp hid
    have hlt := hs.lt r hr
    rw [List.map_singleton, List.mem_singleton] at hid'
    omega
  · intro r hr
    rcases List.mem_append.mp hr with hr | hr
    · exact hs.pos r hr
    · rw [List.mem_singleton.mp hr, hrow]
      exact hs.next_pos
  · intro r hr
    rcases List.mem_append.mp hr with hr | hr
    · exact (hs.lt r hr).trans (Nat.lt_succ_self _)
    · rw [List.mem_singleton.mp hr, hrow]
      exact Nat.lt_succ_self _
  · intro r hr
    rcases List.mem_append.mp hr with hr | hr
    · exact hs.le r hr
    · rw [List.mem_singleton.mp hr, hrow]
      exact hroom

section Step

variable {s : News} {c : NewsCommand}

theorem wellFormed_newsStep (hs : s.WellFormed) (hnames : NamesOwn s c) : (newsStep s c).WellFormed := by
  rw [newsStep]
  rcases doNews_cases hs.alive c with ⟨-, -, -, h⟩ | ⟨text, -, hadd, -, h⟩ | ⟨word, -, -, -, h⟩ | ⟨-, -, -, out, h, -⟩
  · rwa [h]
  · by_cases hfull : 32767 ≤ s.rows.length
    · rwa [h, addText_full hs.alive text hfull]
    · rw [not_le] at hfull
      have hroom := hnames.room text hadd hfull
      rw [h, addText_room hs.alive text hfull hroom]
      exact wellFormed_insert hs hroom rfl
  · by_cases hall : isAll word
    · obtain ⟨msg, -, hdelete⟩ := delWord_all (s := s) (c := c) hall
      rw [h, hdelete]
      exact wellFormed_filter hs _
    · rw [h, delWord_number hs hall]
      exact wellFormed_filter hs _
  · rwa [h]

/-- An item is kept by what does not delete it. -/
theorem row_mem_newsStep (hs : s.WellFormed) (hnames : NamesOwn s c) {r : NewsRow} (hr : r ∈ s.rows)
    (hkeep : ¬ c.Deletes r.type r.newsId) : r ∈ (newsStep s c).rows := by
  rw [newsStep]
  rcases doNews_cases hs.alive c with ⟨-, -, -, h⟩ | ⟨text, -, hadd, -, h⟩ | ⟨word, -, -, hdel, h⟩ |
    ⟨-, -, -, out, h, -⟩
  · rwa [h]
  · by_cases hfull : 32767 ≤ s.rows.length
    · rwa [h, addText_full hs.alive text hfull]
    · rw [not_le] at hfull
      rw [h, addText_room hs.alive text hfull (hnames.room text hadd hfull)]
      exact List.mem_append_left _ hr
  · by_cases hall : isAll word
    · obtain ⟨msg, -, hdelete⟩ := delWord_all (s := s) (c := c) hall
      rw [h, hdelete, List.mem_filter, decide_eq_true_eq]
      exact ⟨hr, fun htype ↦ hkeep ⟨htype.symm, word, hdel, .inl hall⟩⟩
    · rw [h, delWord_number hs hall, List.mem_filter, decide_eq_true_eq]
      refine ⟨hr, fun hid ↦ hkeep ?_⟩
      obtain ⟨htype, hvalue⟩ := hnames.named word hdel hall r hr hid
      exact ⟨htype.symm, word, hdel, .inr hvalue.symm⟩
  · rwa [h]

/-- The item of a reply is in the table. -/
theorem row_mem_of_added (hs : s.WellFormed) {n : ℕ} (h : .notice c.type (.MSG_ADDED n) ∈ (doNews c s).2) :
    ∃ text, c.addedText = some text ∧ ⟨n, c.type, text, c.who, c.now⟩ ∈ (newsStep s c).rows := by
  rw [newsStep]
  rcases doNews_cases hs.alive c with ⟨-, -, -, hdo⟩ | ⟨text, -, hadd, -, hdo⟩ | ⟨word, -, -, -, hdo⟩ |
    ⟨-, -, -, out, hdo, hout⟩
  · rw [hdo] at h
    rcases mem_doNewsList h with heq | heq | ⟨r, -, heq⟩
    · simp at heq
    · simp at heq
    · simp [NewsRow.listEntry] at heq
  · refine ⟨text, hadd, ?_⟩
    by_cases hfull : 32767 ≤ s.rows.length
    · rw [hdo, addText_full hs.alive text hfull] at h
      simp at h
    · rw [not_le] at hfull
      by_cases hroom : s.nextId ≤ MAX_NEWS_ID
      · rw [hdo, addText_room hs.alive text hfull hroom] at h ⊢
        obtain rfl : n = s.nextId := by
          cases htype : c.type <;> simpa [notifyNewsitem, htype] using h
        exact List.mem_append_right _ (List.mem_singleton_self _)
      · rw [hdo, addText_dies text hfull hroom] at h
        cases h
  · by_cases hall : isAll word
    · obtain ⟨msg, hmsg, hdelete⟩ := delWord_all (s := s) (c := c) hall
      rw [hdo, hdelete] at h
      rcases hmsg with rfl | rfl <;> simp at h
    · rw [hdo, delWord_number hs hall, List.mem_singleton, NewsOut.notice.injEq, delReply] at h
      split_ifs at h <;> simp at h
  · rw [hdo] at h
    exact absurd (List.mem_singleton.mp h) (hout _ _)

end Step

theorem wellFormed_run {s : News} {run : List NewsCommand} (hs : s.WellFormed)
    (hrun : Along newsStep NamesOwn s run) : (run.foldl newsStep s).WellFormed :=
  hrun.invariant (fun _ _ h hnames ↦ wellFormed_newsStep h hnames) hs

/-- An item is kept by a run that does not delete it. -/
theorem row_mem_run {s : News} {run : List NewsCommand} (hs : s.WellFormed) (hrun : Along newsStep NamesOwn s run)
    {r : NewsRow} (hr : r ∈ s.rows) (hkeep : ∀ d ∈ run, ¬ d.Deletes r.type r.newsId) :
    r ∈ (run.foldl newsStep s).rows := by
  induction run generalizing s with
  | nil => exact hr
  | cons c run ih =>
    obtain ⟨hnames, hrest⟩ := hrun
    refine ih (wellFormed_newsStep hs hnames) hrest ?_ fun d hd ↦ hkeep d (List.mem_cons_of_mem _ hd)
    exact row_mem_newsStep hs hnames hr (hkeep c List.mem_cons_self)

theorem staysListed_of_along {s : News} {run : List NewsCommand} (hs : s.WellFormed)
    (hrun : Along newsStep NamesOwn s run) : StaysListed s run := by
  intro before c after n hsplit hadded hkeep
  subst hsplit
  have hend := wellFormed_run hs hrun
  obtain ⟨hbefore, hnames, hafter⟩ := (along_append s before (c :: after)).mp hrun
  have hmid := wellFormed_run hs hbefore
  obtain ⟨text, htext, hrow⟩ := row_mem_of_added hmid hadded
  refine ⟨text, htext, fun reader htype hlist ↦ ?_⟩
  have hstays := row_mem_run (wellFormed_newsStep hmid hnames) hafter hrow hkeep
  rw [List.foldl_append, List.foldl_cons] at hend ⊢
  have hlisted : doNews reader (after.foldl newsStep (newsStep (before.foldl newsStep s) c)) =
      (after.foldl newsStep (newsStep (before.foldl newsStep s) c),
        doNewsList reader.type (after.foldl newsStep (newsStep (before.foldl newsStep s) c))) := by
    rw [doNews, if_neg (not_not.mpr hend.alive), hlist]
  rw [hlisted, htype]
  exact listEntry_mem_doNewsList (mem_ofType.mpr ⟨hstays, rfl⟩)

/-- The kinds are kept apart in exactly the runs in which every command names items of its own kind. -/
theorem newsIsolated_iff {s : News} (hs : s.WellFormed) (run : List NewsCommand) :
    NewsIsolated s run ↔ Along newsStep NamesOwn s run := by
  have hkeeps (s : News) (c : NewsCommand) (hs : s.WellFormed) (h : Isolated s c) :
      (newsStep s c).WellFormed := wellFormed_newsStep hs ((isolated_iff hs c).mp h)
  constructor
  · intro hisolated
    exact hisolated.steps.imp hkeeps (fun s c hs h ↦ (isolated_iff hs c).mp h) hs
  · intro hrun
    refine ⟨?_, staysListed_of_along hs hrun⟩
    exact hrun.imp (fun s c hs h ↦ wellFormed_newsStep hs h) (fun s c hs h ↦ (isolated_iff hs c).mpr h) hs

/-- A command of a services admin. -/
def adminNews (type : NewsType) (line : CString) : NewsCommand where
  type := type
  who := "admin".toList
  servadmin := true
  now := 1000
  line := line

/-- An empty table. -/
def noNews : News where
  rows := []
  nextId := 1
  alive := true

theorem wellFormed_noNews : noNews.WellFormed where
  alive := rfl
  next_pos := Nat.one_pos
  nodup := List.nodup_nil
  pos _ hr := absurd hr List.not_mem_nil
  lt _ hr := absurd hr List.not_mem_nil
  le _ hr := absurd hr List.not_mem_nil

theorem newsIsolated_add_del :
    NewsIsolated noNews [adminNews .NEWS_OPER "ADD hello".toList, adminNews .NEWS_OPER "DEL 1".toList] ↔
      Along newsStep NamesOwn noNews
        [adminNews .NEWS_OPER "ADD hello".toList, adminNews .NEWS_OPER "DEL 1".toList] :=
  newsIsolated_iff wellFormed_noNews _

/-- LOGONNEWS DEL 1 deletes the oper news that was added as item 1, and reports success. -/
theorem not_newsIsolated_logon_del :
    noNews.WellFormed ∧
      doNews (adminNews .NEWS_LOGON "DEL 1".toList)
          (newsStep noNews (adminNews .NEWS_OPER "ADD hello".toList)) =
        ({ rows := [], nextId := 2, alive := true }, [.notice .NEWS_LOGON (.MSG_DELETED 1)]) ∧
      ¬ NewsIsolated noNews [adminNews .NEWS_OPER "ADD hello".toList, adminNews .NEWS_LOGON "DEL 1".toList] := by
  refine ⟨wellFormed_noNews, by decide +kernel, fun h ↦ ?_⟩
  have hothers := h.steps.2.1.others .NEWS_OPER (by decide)
  exact absurd hothers (by decide +kernel)

end BlitzedServices.OperServ
