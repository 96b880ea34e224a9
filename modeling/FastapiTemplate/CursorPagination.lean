import FastapiTemplate.AuthData
import FastapiTemplate.Base64
import FastapiTemplate.DatabaseHelpers
import FastapiTemplate.DeadLetterTasks
import FastapiTemplate.KeysetPages
import Mathlib.Tactic.Ring

/-!
# Cursor pagination

`api/utils/pagination.py`, the listings of the data access objects it is applied to, and the
listing of sessions with its own cursor. A cursor is the text of the id of the last row. The server
and the schema of the route read this text back (`parse`). Statements are answered, and a row
stands for the model that is made from it.
-/

namespace FastapiTemplate.Pagination

/-! ## Cursors -/

def encodeCursor (value : String) : String := String.ofList (Base64.encode value.toUTF8.data.toList)

/-- `none` stands for a `ValueError`, such as `binascii.Error` and `UnicodeDecodeError`. -/
def decodeCursor (cursor : String) : Option String :=
  (Base64.decode cursor.toList).bind (fun bytes => String.fromUTF8? ⟨bytes.toArray⟩)

theorem decodeCursor_encodeCursor (value : String) :
    decodeCursor (encodeCursor value) = some value := by
  unfold decodeCursor encodeCursor
  rw [String.toList_ofList, Base64.decode_encode, Option.bind_some, Array.toArray_toList]
  exact dif_pos value.isValidUTF8

theorem encodeCursor_ne_empty {value : String} (h : value ≠ "") : encodeCursor value ≠ "" := by
  intro hempty
  have hdecode := decodeCursor_encodeCursor value
  rw [hempty] at hdecode
  exact h (Option.some.inj hdecode).symm

/-! ## The text of an id -/

def hexDigit (n : ℕ) : Char := "0123456789abcdef".toList.getD n '0'

def hexDigits : ℕ → ℕ → List Char
  | 0, _ => []
  | width + 1, n => hexDigits width (n / 16) ++ [hexDigit (n % 16)]

def uuidText (n : ℕ) : String :=
  let hex := hexDigits 32 n
  String.ofList (hex.take 8 ++ '-' :: (hex.drop 8).take 4 ++ '-' :: (hex.drop 12).take 4 ++
    '-' :: (hex.drop 16).take 4 ++ '-' :: hex.drop 20)

def maxUuid : ℕ := 2 ^ 128

def ReadsUuids (parse : String → Option ℕ) : Prop := ∀ n < maxUuid, parse (uuidText n) = some n

theorem uuidText_ne_empty (n : ℕ) : uuidText n ≠ "" := by
  intro h
  have hlist := congrArg String.toList h
  unfold uuidText at hlist
  rw [String.toList_ofList] at hlist
  simp at hlist

/-! ## Pages -/

structure PaginationParams where
  first : ℕ := 20
  after : Option String := none
  one_le_first : 1 ≤ first := by decide
  first_le : first ≤ 100 := by decide

structure Page (α : Type) where
  items : List α
  totalCount : Option ℕ
  endCursor : Option String

def applyCursorPagination {α ε : Type} (fetchFunc : ℕ → Option String → Except ε (List α))
    (params : PaginationParams) (getCursorValue : α → String)
    (countFunc : Option (Except ε ℕ)) : Except ε (Page α) := do
  -- an invalid cursor starts from the beginning
  let cursorValue := (params.after.filter (· ≠ "")).bind decodeCursor
  let fetched ← fetchFunc (params.first + 1) cursorValue
  let items := if fetched.length > params.first then fetched.take params.first else fetched
  let endCursor := items.getLast?.map (fun lastItem => encodeCursor (getCursorValue lastItem))
  match countFunc with
  | none => pure ⟨items, none, endCursor⟩
  | some count => do
    let totalCount ← count
    pure ⟨items, some totalCount, endCursor⟩

/-! ## Listings -/

section listings
variable {α : Type}

/-- `SELECT * FROM .. WHERE .. AND id < cursor ORDER BY id DESC LIMIT limit` -/
def selectPage (rows : List α) (id : α → ℕ) (condition : α → Bool) (cursor : Option ℕ)
    (limit : ℕ) : List α :=
  (Keyset.sortDescending id
    (rows.filter (fun row => condition row && cursor.all (id row < ·)))).take limit

/-- A listing casts its cursor to `uuid`; an empty one counts as none. -/
def castCursor (parse : String → Option ℕ) (cursor : Option String) :
    Except Sql.DbError (Option ℕ) :=
  match cursor with
  | none => .ok none
  | some text =>
    if text = "" then .ok none
    else match parse text with
      | none => .error .interface
      | some id => .ok (some id)

/-- The shape of `RoleDAO.get_all_roles`, `RoleDAO.get_all_permissions`, `ApiKeyDAO.list_api_keys`
and `WebhookDAO.list_endpoints`. -/
def listById (parse : String → Option ℕ) (rows : List α) (id : α → ℕ) (condition : α → Bool)
    (limit : ℕ) (cursor : Option String) : Except Sql.DbError (List α) := do
  let cursor ← castCursor parse cursor
  pure (selectPage rows id condition cursor limit)

end listings

/-! ## Dead letter tasks -/

section deadLetterTasks
open DeadLetter

structure DLQTaskFilter where
  taskName : Option String := none
  exceptionType : Option String := none
  search : Option String := none
  dateFrom : Option ℕ := none
  dateTo : Option ℕ := none

variable (ilike : String → String → Bool)

/-- The conditions but that on the id; an empty text sets none. -/
def DLQTaskFilter.condition (filters : DLQTaskFilter) (row : DeadLetterRow) : Bool :=
  let given (text : Option String) := text.filter (· ≠ "")
  (given filters.taskName).all (row.taskName = ·) &&
    (given filters.exceptionType).all (row.exceptionType = ·) &&
    (given filters.search).all (fun search =>
      let pattern := "%" ++ search ++ "%"
      ilike row.taskName pattern || ilike row.exceptionMessage pattern ||
        ilike row.traceback pattern) &&
    filters.dateFrom.all (row.failedAt ≥ ·) &&
    filters.dateTo.all (row.failedAt ≤ ·)

variable (parse : String → Option ℕ) (table : DeadLetterTable)

def DeadLetterTaskDAO.listTasks (filters : DLQTaskFilter) (limit : Option ℤ)
    (cursor : Option String) (offset : ℤ) : Except Sql.DbError (List DeadLetterRow) := do
  let cursor ← castCursor parse cursor
  let matching := Keyset.sortDescending DeadLetterRow.id
    (table.rows.filter (fun row => filters.condition ilike row && cursor.all (row.id < ·)))
  let skipped := if offset > 0 then matching.drop offset.toNat else matching
  pure (match limit with
    | none => skipped
    | some limit => if limit > 0 then skipped.take limit.toNat else skipped)

def DeadLetterTaskDAO.countTasks (filters : DLQTaskFilter) : Except Sql.DbError ℕ :=
  pure (table.rows.countP (filters.condition ilike))

def DeadLetterTaskService.listTasks (filters : DLQTaskFilter) (limit : ℤ)
    (cursor : Option String) : Except Sql.DbError (List DeadLetterRow) :=
  DeadLetterTaskDAO.listTasks ilike parse table filters (some limit) cursor 0

def listDeadLetterTasks (pagination : PaginationParams) (filters : DLQTaskFilter) :
    Except Sql.DbError (Page DeadLetterRow) :=
  applyCursorPagination
    (fun limit cursor => DeadLetterTaskService.listTasks ilike parse table filters limit cursor)
    pagination (fun row => uuidText row.id)
    (some (DeadLetterTaskDAO.countTasks ilike table filters))

end deadLetterTasks

/-! ## Sessions -/

structure UserSessionData extends UserSessionCreate where
  id : ℕ
  createdAt : ℕ
  updatedAt : ℕ

structure CursorPage (α : Type) where
  items : List α
  nextCursor : Option String

def UserDAO.getUserSessions (userSessions : List UserSessionData) (userId : UserId) (limit : ℕ)
    (cursor : Option ℕ) : List UserSessionData :=
  selectPage userSessions (·.id) (·.userId = userId) cursor limit

def UserService.getUserSessions (userSessions : List UserSessionData) (userId : UserId) (limit : ℕ)
    (cursor : Option ℕ) : CursorPage UserSessionData :=
  let sessions := UserDAO.getUserSessions userSessions userId (limit + 1) cursor
  if sessions.length > limit then
    let items := sessions.take limit
    ⟨items, items.getLast?.map (fun session => uuidText session.id)⟩
  else ⟨sessions, none⟩

/-- The route; a cursor that is no UUID is answered with status 422. -/
def getSessions (parse : String → Option ℕ) (userSessions : List UserSessionData) (userId : UserId)
    (limit : ℕ) (cursor : Option String) : Except ℕ (CursorPage UserSessionData) :=
  match cursor with
  | none => .ok (UserService.getUserSessions userSessions userId limit none)
  | some text =>
    match parse text with
    | none => .error 422
    | some id => .ok (UserService.getUserSessions userSessions userId limit (some id))

/-! ## Complete pagination -/

section complete
open Keyset
variable {α ε : Type}

structure Complete (size : ℕ) (matching : List α) (id : α → ℕ) (pages : List (List α)) : Prop where
  once : pages.flatten.Perm matching
  descending : Descending id pages.flatten
  full : FullPages size pages

/-- Following the cursors ends, and has read the matching rows. -/
def PaginatesCompletely (page : Option String → Except ε (List α × Option String)) (size : ℕ)
    (matching : List α) (id : α → ℕ) : Prop :=
  (∃ pages, Walk page none pages) ∧ ∀ pages, Walk page none pages → Complete size matching id pages

theorem paginatesCompletely_of_serves {page : Option String → Except ε (List α × Option String)}
    {size : ℕ} (hsize : 0 < size) {matching : List α} {id : α → ℕ}
    (hids : (matching.map id).Nodup) {cursor : α → String}
    (h : Serves size page (StandsAt cursor (sortDescending id matching))) :
    PaginatesCompletely page size matching id := by
  obtain ⟨pages, hwalk, hflatten, hfull⟩ := h.walk hsize (.start cursor _)
  refine ⟨⟨pages, hwalk⟩, ?_⟩
  intro other hother
  rw [← hwalk.unique hother]
  refine ⟨?_, ?_, hfull⟩
  · rw [hflatten]
    exact sortDescending_perm matching
  · rw [hflatten]
    exact sortDescending_descending hids

/-- A statement from the cursor on selects the next rows. -/
theorem selectPage_standsAt {rows : List α} {id : α → ℕ} (hids : (rows.map id).Nodup)
    {condition : α → Bool} {done rest : List α}
    (hsplit : sortDescending id (rows.filter condition) = done ++ rest) (limit : ℕ) :
    selectPage rows id condition (done.getLast?.map id) limit = rest.take limit := by
  have hmatching : ((rows.filter condition).map id).Nodup :=
    hids.sublist (List.filter_sublist.map id)
  have hdescending : Descending id (done ++ rest) := by
    rw [← hsplit]
    exact sortDescending_descending hmatching
  have hfilter : rows.filter (fun row => condition row && (done.getLast?.map id).all (id row < ·)) =
      (rows.filter condition).filter (fun row => (done.getLast?.map id).all (id row < ·)) := by
    rw [List.filter_filter]
    simp only [Bool.and_comm]
  unfold selectPage
  rw [hfilter, sortDescending_filter hmatching, hsplit, filter_lt_standsAt hdescending]

/-! ### The cursor on its way back -/

variable {parse : String → Option ℕ}

def IdsFit (rows : List α) (id : α → ℕ) : Prop := ∀ row ∈ rows, id row < maxUuid

theorem decoded_cursor {text : α → String} (htext : ∀ row, text row ≠ "") (last : Option α) :
    ((last.map (fun row => encodeCursor (text row))).filter (· ≠ "")).bind decodeCursor =
      last.map text := by
  cases last with
  | none => rfl
  | some row =>
    have hne : (some (encodeCursor (text row))).filter (· ≠ "") = some (encodeCursor (text row)) :=
      Option.filter_eq_some_iff.mpr ⟨rfl, decide_eq_true (encodeCursor_ne_empty (htext row))⟩
    simp only [Option.map_some]
    rw [hne, Option.bind_some, decodeCursor_encodeCursor]

theorem castCursor_last (hparse : ReadsUuids parse) {id : α → ℕ} {last : Option α}
    (hfit : ∀ row ∈ last, id row < maxUuid) :
    castCursor parse (last.map (fun row => uuidText (id row))) = .ok (last.map id) := by
  cases last with
  | none => rfl
  | some row =>
    simp only [castCursor, Option.map_some]
    rw [if_neg (uuidText_ne_empty _), hparse (id row) (hfit row rfl)]

/-! ### The two forms of a page -/

/-- A fetch from the cursor on, and the page that is made of it. -/
theorem applyCursorPagination_eq {fetchFunc : ℕ → Option String → Except ε (List α)}
    {params : PaginationParams} {getCursorValue : α → String} {countFunc : Option ℕ} {rest : List α}
    (hfetch : fetchFunc (params.first + 1) ((params.after.filter (· ≠ "")).bind decodeCursor) =
      .ok (rest.take (params.first + 1))) :
    applyCursorPagination fetchFunc params getCursorValue (countFunc.map .ok) =
      .ok ⟨rest.take params.first, countFunc,
        (rest.take params.first).getLast?.map (fun row => encodeCursor (getCursorValue row))⟩ := by
  have hitems := congrArg (fun items => (Except.ok ⟨items, countFunc,
    items.getLast?.map (fun row => encodeCursor (getCursorValue row))⟩ : Except ε (Page α)))
    (take_of_take_succ rest params.first)
  unfold applyCursorPagination
  simp only [hfetch]
  cases countFunc with
  | none => exact hitems
  | some count => exact hitems

def Page.next (page : Page α) : List α × Option String := (page.items, page.endCursor)

def CursorPage.next (page : CursorPage α) : List α × Option String := (page.items, page.nextCursor)

theorem listById_standsAt (hparse : ReadsUuids parse) {rows : List α} {id : α → ℕ}
    (hids : (rows.map id).Nodup) (hfit : IdsFit rows id) {condition : α → Bool} {done rest : List α}
    (hsplit : sortDescending id (rows.filter condition) = done ++ rest) (limit : ℕ) :
    listById parse rows id condition limit (done.getLast?.map (fun row => uuidText (id row))) =
      .ok (rest.take limit) := by
  have hlast : ∀ row ∈ done.getLast?, id row < maxUuid := by
    intro row hrow
    apply hfit
    have hmem : row ∈ sortDescending id (rows.filter condition) := by
      rw [hsplit]
      exact List.mem_append_left _ (List.mem_of_getLast? hrow)
    exact (List.mem_filter.mp ((sortDescending_perm _).mem_iff.mp hmem)).1
  unfold listById
  rw [castCursor_last hparse hlast]
  exact congrArg Except.ok (selectPage_standsAt hids hsplit limit)

/-- A page of the generic pagination over a listing shows the next rows, with a cursor unless it is
empty. -/
theorem listing_serves (hparse : ReadsUuids parse) {rows : List α} {id : α → ℕ}
    (hids : (rows.map id).Nodup) (hfit : IdsFit rows id) (condition : α → Bool)
    (params : PaginationParams) (countFunc : Option ℕ) :
    Serves params.first (fun after => (applyCursorPagination (listById parse rows id condition)
        { params with after := after } (fun row => uuidText (id row)) (countFunc.map .ok)).map
          Page.next)
      (StandsAt (fun row => encodeCursor (uuidText (id row)))
        (sortDescending id (rows.filter condition))) := by
  intro c rest hat
  have hnext := hat.next params.one_le_first
  obtain ⟨done, hsplit, rfl⟩ := hat
  have hfetch := listById_standsAt hparse hids hfit hsplit (params.first + 1)
  rw [← decoded_cursor (fun row => uuidText_ne_empty (id row)) done.getLast?] at hfetch
  refine ⟨_, congrArg (Except.map Page.next) (applyCursorPagination_eq hfetch), ?_⟩
  cases rest with
  | nil =>
    simp only [List.take_nil]
    exact Nat.zero_le _
  | cons row rest =>
    obtain ⟨last, hlast, hat'⟩ := hnext (List.cons_ne_nil _ _)
    rw [hlast]
    exact ⟨List.cons_ne_nil _ _, hat'⟩

/-- A page of sessions has a cursor if there are further sessions. -/
theorem sessions_serves (hparse : ReadsUuids parse) {userSessions : List UserSessionData}
    (hids : (userSessions.map (·.id)).Nodup) (hfit : IdsFit userSessions (·.id)) (userId : UserId)
    {limit : ℕ} (hlimit : 1 ≤ limit) :
    Serves limit (fun cursor => (getSessions parse userSessions userId limit cursor).map
        CursorPage.next)
      (StandsAt (fun session => uuidText session.id)
        (sortDescending (·.id) (userSessions.filter (·.userId = userId)))) := by
  intro c rest hat
  have hnext := hat.next hlimit
  obtain ⟨done, hsplit, rfl⟩ := hat
  have hfetch := selectPage_standsAt hids hsplit (limit + 1)
  have hroute : getSessions parse userSessions userId limit
      (done.getLast?.map (fun session => uuidText session.id)) =
        .ok (UserService.getUserSessions userSessions userId limit (done.getLast?.map (·.id))) := by
    cases hlast : done.getLast? with
    | none => rfl
    | some session =>
      have hmem : session ∈ sortDescending (·.id) (userSessions.filter (·.userId = userId)) := by
        rw [hsplit]
        exact List.mem_append_left _ (List.mem_of_getLast? hlast)
      have hstored := (List.mem_filter.mp ((sortDescending_perm _).mem_iff.mp hmem)).1
      simp only [getSessions, Option.map_some, hparse session.id (hfit session hstored)]
  have hitems := take_of_take_succ rest limit
  dsimp only
  rw [hroute]
  unfold UserService.getUserSessions UserDAO.getUserSessions
  rw [hfetch]
  dsimp only
  split_ifs at hitems ⊢ with hmore
  · rw [hitems]
    refine ⟨_, rfl, ?_⟩
    have hne : rest ≠ [] := by
      rintro rfl
      simp at hmore
    obtain ⟨last, hlast, hat'⟩ := hnext hne
    rw [hlast]
    exact ⟨hne, hat'⟩
  · refine ⟨none, congrArg (fun items => Except.ok (items, none)) hitems, ?_⟩
    rw [List.length_take] at hmore
    change rest.length ≤ limit
    omega

/-! ### The routes -/

theorem listTasks_eq (ilike : String → String → Bool) (table : DeadLetter.DeadLetterTable)
    (filters : DLQTaskFilter) (n : ℕ) (cursor : Option String) :
    DeadLetterTaskService.listTasks ilike parse table filters ((n + 1 : ℕ) : ℤ) cursor =
      listById parse table.rows (·.id) (filters.condition ilike) (n + 1) cursor := by
  unfold DeadLetterTaskService.listTasks DeadLetterTaskDAO.listTasks listById
  cases castCursor parse cursor with
  | error e => rfl
  | ok id =>
    have hpos : ((n + 1 : ℕ) : ℤ) > 0 := Int.natCast_pos.mpr n.succ_pos
    change Except.ok (if ((n + 1 : ℕ) : ℤ) > 0 then _ else _) = Except.ok _
    rw [if_pos hpos]
    rfl

theorem listDeadLetterTasks_eq (ilike : String → String → Bool)
    (table : DeadLetter.DeadLetterTable) (filters : DLQTaskFilter) (params : PaginationParams) :
    listDeadLetterTasks ilike parse table params filters =
      applyCursorPagination (listById parse table.rows (·.id) (filters.condition ilike)) params
        (fun row => uuidText row.id)
        ((some (table.rows.countP (filters.condition ilike))).map .ok) := by
  unfold listDeadLetterTasks applyCursorPagination
  simp only [listTasks_eq]
  rfl

/-- Over every listing with unique ids, over the dead letter tasks under every filter and over the
sessions of every user, the pages are complete. -/
theorem cursor_pagination_complete (hparse : ReadsUuids parse) :
    (∀ {α : Type} (rows : List α) (id : α → ℕ) (condition : α → Bool) (params : PaginationParams)
      (countFunc : Option ℕ), (rows.map id).Nodup → IdsFit rows id →
      PaginatesCompletely (fun after => (applyCursorPagination (listById parse rows id condition)
        { params with after := after } (fun row => uuidText (id row)) (countFunc.map .ok)).map
          Page.next) params.first (rows.filter condition) id) ∧
    (∀ (ilike : String → String → Bool) (table : DeadLetter.DeadLetterTable)
      (filters : DLQTaskFilter) (params : PaginationParams), IdsFit table.rows (·.id) →
      PaginatesCompletely (fun after => (listDeadLetterTasks ilike parse table
        { params with after := after } filters).map Page.next) params.first
          (table.rows.filter (filters.condition ilike)) (·.id)) ∧
    ∀ (userSessions : List UserSessionData) (userId : UserId) (limit : ℕ), 1 ≤ limit →
      (userSessions.map (·.id)).Nodup → IdsFit userSessions (·.id) →
      PaginatesCompletely (fun cursor => (getSessions parse userSessions userId limit cursor).map
        CursorPage.next) limit (userSessions.filter (·.userId = userId)) (·.id) := by
  refine ⟨?_, ?_, ?_⟩
  · intro α rows id condition params countFunc hids hfit
    exact paginatesCompletely_of_serves params.one_le_first
      (hids.sublist (List.filter_sublist.map id))
      (listing_serves hparse hids hfit condition params countFunc)
  · intro ilike table filters params hfit
    have hserves := listing_serves hparse table.idsApart hfit (filters.condition ilike) params
      (some (table.rows.countP (filters.condition ilike)))
    simp only [listDeadLetterTasks_eq]
    exact paginatesCompletely_of_serves params.one_le_first
      (table.idsApart.sublist (List.filter_sublist.map _)) hserves
  · intro userSessions userId limit hlimit hids hfit
    exact paginatesCompletely_of_serves hlimit (hids.sublist (List.filter_sublist.map _))
      (sessions_serves hparse hids hfit userId hlimit)

end complete

/-! ## A reader of UUIDs -/

def hexValue (c : Char) : ℕ := "0123456789abcdef".toList.idxOf c

/-- 32 hexadecimal digits, with dashes anywhere. -/
def readUuid (text : String) : Option ℕ :=
  let hex := text.toList.filter (· ≠ '-')
  if hex.length = 32 ∧ hex.all (hexValue · < 16) then
    some (hex.foldl (fun n c => n * 16 + hexValue c) 0)
  else none

theorem hexValue_hexDigit : ∀ n < 16, hexValue (hexDigit n) = n := by decide +kernel

theorem hexDigit_ne_dash : ∀ n < 16, hexDigit n ≠ '-' := by decide +kernel

theorem length_hexDigits (width n : ℕ) : (hexDigits width n).length = width := by
  induction width generalizing n with
  | zero => rfl
  | succ width ih => rw [hexDigits, List.length_append, ih, List.length_singleton]

theorem mem_hexDigits {width n : ℕ} {c : Char} (h : c ∈ hexDigits width n) :
    ∃ d < 16, c = hexDigit d := by
  induction width generalizing n with
  | zero => cases h
  | succ width ih =>
    rcases List.mem_append.mp h with h | h
    · exact ih h
    · exact ⟨n % 16, Nat.mod_lt _ (by decide), List.mem_singleton.mp h⟩

theorem foldl_hexDigits (width n : ℕ) :
    (hexDigits width n).foldl (fun n c => n * 16 + hexValue c) 0 = n % 16 ^ width := by
  induction width generalizing n with
  | zero => rw [pow_zero, Nat.mod_one]; rfl
  | succ width ih =>
    rw [hexDigits, List.foldl_append, ih, List.foldl_cons, List.foldl_nil,
      hexValue_hexDigit _ (Nat.mod_lt _ (by decide)), pow_succ', Nat.mod_mul]
    ring

theorem uuidText_digits (n : ℕ) : (uuidText n).toList.filter (· ≠ '-') = hexDigits 32 n := by
  have hsplit : hexDigits 32 n = (hexDigits 32 n).take 8 ++ ((hexDigits 32 n).drop 8).take 4 ++
      ((hexDigits 32 n).drop 12).take 4 ++ ((hexDigits 32 n).drop 16).take 4 ++
        (hexDigits 32 n).drop 20 := by
    simp only [← List.take_add, List.take_append_drop]
  have hdigits : (hexDigits 32 n).filter (· ≠ '-') = hexDigits 32 n := by
    apply List.filter_eq_self.mpr
    intro c hc
    obtain ⟨d, hd, rfl⟩ := mem_hexDigits hc
    exact decide_eq_true (hexDigit_ne_dash d hd)
  have hdash (cs : List Char) : ('-' :: cs).filter (· ≠ '-') = cs.filter (· ≠ '-') := rfl
  unfold uuidText
  rw [String.toList_ofList]
  conv_rhs => rw [← hdigits, hsplit]
  simp only [List.filter_append, hdash, List.cons_append, List.append_assoc]

theorem readUuid_reads : ReadsUuids readUuid := by
  intro n hn
  unfold readUuid
  rw [uuidText_digits]
  have hall : (hexDigits 32 n).all (hexValue · < 16) = true := by
    apply List.all_eq_true.mpr
    intro c hc
    obtain ⟨d, hd, rfl⟩ := mem_hexDigits hc
    rw [hexValue_hexDigit d hd]
    exact decide_eq_true hd
  have hvalue : n % 16 ^ 32 = n := Nat.mod_eq_of_lt hn
  rw [if_pos ⟨length_hexDigits 32 n, hall⟩, foldl_hexDigits, hvalue]

def twoSessions : List UserSessionData :=
  [⟨⟨0, 7, 0, 60, none, none⟩, 1, 0, 0⟩, ⟨⟨1, 7, 0, 60, none, none⟩, 2, 0, 0⟩]

theorem cursor_pagination_complete_twoSessions :
    PaginatesCompletely (fun cursor => (getSessions readUuid twoSessions 7 1 cursor).map
      CursorPage.next) 1 (twoSessions.filter (·.userId = 7)) (·.id) := by
  apply (cursor_pagination_complete readUuid_reads).2.2 twoSessions 7 1 (Nat.le_refl 1)
  · decide
  · intro session hsession
    rcases List.mem_pair.mp hsession with rfl | rfl <;> decide

end FastapiTemplate.Pagination
