import FastapiTemplate.CommonStatements
import FastapiTemplate.NumberedPlaceholders

/-!
# Queries of the data access objects

The text of a statement that reads, and what a server of rows answers to the calls of a method.
-/

namespace FastapiTemplate.Sql

open SelectTexts

/-! ## Answers -/

def Query.selectText (q : Query) : String := "SELECT " ++ q.clause

/-- `COUNT(*)` gives a single row. -/
def replyRows (columns : List String) (rows : List Row) : List Row :=
  if columns = ["COUNT", "(", "*", ")"] then [[("count", .int rows.length)]] else rows

/-- The rows for a statement that selects; another one fails here. -/
def Query.reply (q : Query) (s : SelectTexts.Server Arg Row) : Option (List Row) :=
  if q.verb = .select then
    (prepare q.selectText q.args).bind fun select => (s.run select).map (replyRows select.columns)
  else none

def HelperCall.answer (s : SelectTexts.Server Arg Row) (e : DbError) : (c : HelperCall) → c.Answer
  | .fetch q _ => (q.reply s).elim (.error e) .ok
  | .fetchval q =>
    (q.reply s).elim (.error e) (fun rows => .ok (rows.head?.bind (fun row => row[0]?.map (·.2))))
  | .write _ => .error e
  | .execute _ => .error e
  | .transaction _ => .error e

def DaoProgram.reads {α : Type} (p : DaoProgram α) (s : SelectTexts.Server Arg Row) (e : DbError) :
    Except DbError α :=
  (Program.execute (fun c (_ : Unit) => (c.answer s e, ())) p ()).1

/-- A `bigint`, as the driver sends a limit or an offset; the server refuses a negative one. -/
def bigint : Arg → Option ℕ
  | .int n => if 0 ≤ n ∧ n ≤ 9223372036854775807 then some n.toNat else none
  | _ => none

/-- The rows of every source, and what the server makes of comparisons and orders. -/
structure Replica where
  rows : List String → List Row
  encodes : Comparison Arg → Bool
  holds : Comparison Arg → Row → Bool
  sort : List String → List Row → List Row
  sort_perm : ∀ order rows, (sort order rows).Perm rows

def Replica.server (r : Replica) : SelectTexts.Server Arg Row :=
  ⟨r.rows, r.encodes, bigint, r.holds, r.sort, r.sort_perm⟩

def Asks {α : Type} (p : DaoProgram α) (read : Query → DaoProgram α) (select : Select Arg) : Prop :=
  ∃ q, p = read q ∧ q.verb = .select ∧ prepare q.selectText q.args = some select

section reads
variable {s : SelectTexts.Server Arg Row} {e : DbError}

theorem reads_fetch (q : Query) :
    (Dao.fetch q).reads s e = (q.reply s).elim (.error e) .ok := by
  have hcall : (Dao.fetch q).reads s e =
      ((Dao.call (.fetch q false)).reads s e : Except DbError (List Row)) := rfl
  rw [hcall]
  change (Program.execute _ (Program.call (HelperCall.fetch q false) _) ()).1 = _
  rw [Program.execute_call]
  have hanswer : HelperCall.answer s e (.fetch q false) = (q.reply s).elim (.error e) .ok := rfl
  rw [hanswer]
  cases q.reply s <;> rfl

def fetchCount (q : Query) : DaoProgram ℤ := do
  let record ← Dao.fetchRow q
  pure (countOf record "count")

theorem reads_fetchCount (q : Query) : (fetchCount q).reads s e =
    (q.reply s).elim (.error e) (fun rows => .ok (countOf rows.head? "count")) := by
  change (Program.execute _ (Program.call (HelperCall.fetch q true) _) ()).1 = _
  rw [Program.execute_call]
  have hanswer : HelperCall.answer s e (.fetch q true) = (q.reply s).elim (.error e) .ok := rfl
  rw [hanswer]
  cases q.reply s <;> rfl

theorem reply_of_prepare {q : Query} {select : Select Arg} (hverb : q.verb = .select)
    (hprepare : prepare q.selectText q.args = some select) :
    q.reply s = (s.run select).map (replyRows select.columns) := by
  rw [Query.reply, if_pos hverb, hprepare, Option.bind_some]

theorem Asks.reads_list {p : DaoProgram (List Row)} {select : Select Arg}
    (h : Asks p Dao.fetch select) (hcolumns : select.columns ≠ ["COUNT", "(", "*", ")"]) :
    p.reads s e = (s.run select).elim (.error e) .ok := by
  obtain ⟨q, rfl, hverb, hprepare⟩ := h
  rw [reads_fetch, reply_of_prepare hverb hprepare]
  cases s.run select with
  | none => rfl
  | some rows => rw [Option.map_some, replyRows, if_neg hcolumns]

theorem Asks.reads_count {p : DaoProgram ℤ} {select : Select Arg} (h : Asks p fetchCount select)
    (hcolumns : select.columns = ["COUNT", "(", "*", ")"]) :
    p.reads s e = (s.run select).elim (.error e) (fun rows => .ok (rows.length : ℤ)) := by
  obtain ⟨q, rfl, hverb, hprepare⟩ := h
  rw [reads_fetchCount, reply_of_prepare hverb hprepare]
  cases s.run select with
  | none => rfl
  | some rows => rw [Option.map_some, replyRows, if_pos hcolumns]; rfl

end reads

/-! ## Clauses -/

namespace Clauses

def Means (c : Clauses) (bound : List (Condition Arg)) : Prop := (Parts.mk c.parts c.params).Means bound

theorem means_always : (Clauses.mk ["1=1"] []).Means [.always] := Parts.means_always

variable {c : Clauses} {bound : List (Condition Arg)} {test : Arg → Condition Arg}
  {part : String → String}

theorem Means.pushIf (h : c.Means bound) (ht : Test test part) (param : Option Arg) :
    (c.pushIf param part).Means (bound ++ (param.map test).toList) := by
  cases param with
  | none =>
    rw [Option.map_none, Option.toList_none, List.append_nil]
    exact h
  | some param => exact Parts.Means.push h ht param

end Clauses
end FastapiTemplate.Sql
