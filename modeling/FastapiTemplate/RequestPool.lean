import FastapiTemplate.AuthSystem
import FastapiTemplate.ProgramPool

/-!
# Requests that interleave

The operations of the system as threads of a pool: between any two calls of one
request, other requests make theirs and time passes. A run of the pool is any
order of such steps, with any number of requests.
-/

namespace FastapiTemplate

abbrev RequestThread := Thread Call Call.Answer AppError Response Op

abbrev RequestPool := Pool Call Call.Answer AppError Response Op State

abbrev RequestMove := PoolMove Op ℕ

/-- A later state of the system: the clock has not gone back and no version has fallen. -/
structure Grows (s t : State) : Prop where
  clock : s.clock ≤ t.clock
  versions : VersionsGrow s t

theorem Grows.refl (s : State) : Grows s s := ⟨le_refl _, .refl s⟩

theorem Grows.trans {s t u : State} (hst : Grows s t) (htu : Grows t u) : Grows s u :=
  ⟨hst.clock.trans htu.clock, hst.versions.trans htu.versions⟩

variable [External]

def requests : PoolSystem Call Call.Answer AppError Response Op ℕ State where
  handler := handler
  environment d s := s.advance d
  program := Op.program

def RequestPool.start (s : State) : RequestPool := ⟨s, []⟩

/-- The request runs to its end without a break; twenty calls are enough for a login. -/
def RequestMove.finish (i : ℕ) : List RequestMove := List.replicate 20 (.advance i)

theorem requests_step_grows (p : RequestPool) (m : RequestMove) :
    Grows p.state (requests.step p m).state := by
  have hcase := requests.step_cases p m
  generalize requests.step p m = q at hcase
  cases hcase with
  | spawn tag => exact .refl _
  | environment d => exact ⟨Nat.le_add_right _ _, .refl _⟩
  | idle i => exact .refl _
  | call hth hrest => exact ⟨(handler_clock _ _).ge, handler_versionsGrow _ _⟩

/-! ## Two requests with challenges of their own -/

namespace RequestPool

def challengeTables : Database where
  users := [World.testUser]
  userTwoFactor := [⟨0, true, "GEZDGNBVGY3TQOJQGEZDGNBVGY3TQOJQ",
    [{ codeHash := "AAAABBBB" }, { codeHash := "CCCCDDDD" }]⟩]

def challengeStart : State := (World.start challengeTables 1).state

def login : RequestMove := .spawn (.authenticateUser "testuser" "U*U" {})

def answer (twoFactorToken : ℕ) (code : String) : RequestMove :=
  .spawn (.verifyTwoFactorChallenge twoFactorToken code {})

def answersInTurn (delay : ℕ) (code code' : String) : List RequestMove :=
  login :: RequestMove.finish 0 ++ login :: RequestMove.finish 1 ++
    answer 1 code :: RequestMove.finish 2 ++
    .environment delay :: answer 2 code' :: RequestMove.finish 3

def answersAtOnce (code code' : String) : List RequestMove :=
  login :: RequestMove.finish 0 ++ login :: RequestMove.finish 1 ++
    answer 1 code :: answer 2 code' :: (List.replicate 20 [.advance 2, .advance 3]).flatten

end RequestPool
end FastapiTemplate
