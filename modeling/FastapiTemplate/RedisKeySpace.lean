import FastapiTemplate.PythonTexts
import FastapiTemplate.RequestPool
import FastapiTemplate.SharedStores

/-!
# The keys of database 0

The requests share one Redis database with the idempotency layer, the caches and the schedule, whose
keys are partly chosen by clients. Every key begins with a literal of its own, so each request
finds what it would find in a store of its own, and the others find theirs. The keys that the
package of the rate limiter puts into the same database are left out.
-/

namespace FastapiTemplate.RedisKeySpace

/-! ## Patterns -/

/-- The patterns of `RedisKeys` and `CeleryRedisKeys`, and those that are written out in place. -/
inductive KeyPattern
  | blacklist (tokenType : TokenTypes)
  | oauthStateGoogle
  | twoFactorSetup
  | twoFactorChallenge
  | twoFactorReplay
  | impersonationSession
  | systemConfigCache
  | rolesCache
  | appVersionCache
  | appVersionsAllCache
  | idempotencyLock
  | idempotencyResponse
  | apiKeyCache
  | apiKeyLastUsedLock
  | scheduleData
  | scheduleVersion
  deriving DecidableEq, Repr

namespace KeyPattern

def literal : KeyPattern → String
  | .blacklist .access => "blacklist:access:"
  | .blacklist .refresh => "blacklist:refresh:"
  | .blacklist .sudo => "blacklist:sudo:"
  | .oauthStateGoogle => "oauth:state:google:"
  | .twoFactorSetup => "2fa:setup:"
  | .twoFactorChallenge => "2fa:challenge:"
  | .twoFactorReplay => "2fa:replay:"
  | .impersonationSession => "impersonation:session:"
  | .systemConfigCache => "system_config:singleton"
  | .rolesCache => "roles_cache"
  | .appVersionCache => "app_version:"
  | .appVersionsAllCache => "app_versions:all"
  | .idempotencyLock => "idempotency:lock:"
  | .idempotencyResponse => "idempotency:response:"
  | .apiKeyCache => "api_key:cache:"
  | .apiKeyLastUsedLock => "api_key:last_used_lock:"
  | .scheduleData => "celery:beat_schedule_data"
  | .scheduleVersion => "celery:schedule_version"

def all : List KeyPattern :=
  [.blacklist .access, .blacklist .refresh, .blacklist .sudo, .oauthStateGoogle, .twoFactorSetup,
    .twoFactorChallenge, .twoFactorReplay, .impersonationSession, .systemConfigCache, .rolesCache,
    .appVersionCache, .appVersionsAllCache, .idempotencyLock, .idempotencyResponse, .apiKeyCache,
    .apiKeyLastUsedLock, .scheduleData, .scheduleVersion]

theorem mem_all (pattern : KeyPattern) : pattern ∈ all := by
  rcases pattern with (_ | _ | _) | _ | _ | _ | _ | _ | _ | _ | _ | _ | _ | _ | _ | _ | _ | _ <;>
    decide

theorem literal_prefixFree : PrefixFree (fun pattern => (literal pattern).toList) := by
  have hall : ∀ i ∈ all, ∀ j ∈ all, (literal i).toList <+: (literal j).toList → i = j := by
    decide +kernel
  exact fun i j => hall i (mem_all i) j (mem_all j)

theorem text_inj {i j : KeyPattern} {rest rest' : String}
    (h : i.literal ++ rest = j.literal ++ rest') : i = j ∧ rest = rest' := by
  have hlists := congrArg String.toList h
  rw [String.toList_append, String.toList_append] at hlists
  obtain ⟨hpattern, hrest⟩ := literal_prefixFree.append_inj hlists
  exact ⟨hpattern, String.toList_injective hrest⟩

end KeyPattern

/-! ## The keys of the requests -/

/-- How drawn numbers are written: no two alike, and the `UUID` of a user without colons. -/
structure KeyNames where
  userId : UserId → String
  jti : ℕ → String
  state : ℕ → String
  token : ℕ → String
  userId_injective : Function.Injective userId
  jti_injective : Function.Injective jti
  state_injective : Function.Injective state
  token_injective : Function.Injective token
  noColon : ∀ user, ':' ∉ (userId user).toList

def patternOf : RedisKey → KeyPattern
  | .blacklist tokenType _ => .blacklist tokenType
  | .oauthStateGoogle _ => .oauthStateGoogle
  | .twoFactorSetup _ => .twoFactorSetup
  | .twoFactorChallenge _ => .twoFactorChallenge
  | .twoFactorReplay .. => .twoFactorReplay
  | .impersonationSession _ => .impersonationSession
  | .systemConfigCache => .systemConfigCache

namespace KeyNames

variable (names : KeyNames)

def rest : RedisKey → String
  | .blacklist _ jti => names.jti jti
  | .oauthStateGoogle state => names.state state
  | .twoFactorSetup userId => names.userId userId
  | .twoFactorChallenge token => names.token token
  | .twoFactorReplay userId timestampSlice => names.userId userId ++ ":" ++ timestampSlice.repr
  | .impersonationSession jti => names.jti jti
  | .systemConfigCache => ""

def text (key : RedisKey) : String := (patternOf key).literal ++ names.rest key

omit names in
theorem repr_injective : Function.Injective Nat.repr := by
  intro n m h
  have hdigits : Nat.toDigits 10 n = Nat.toDigits 10 m := by
    rw [← Nat.toList_repr, ← Nat.toList_repr, h]
  rw [← Nat.ofDigitChars_ten_toDigits (n := n), hdigits, Nat.ofDigitChars_ten_toDigits]

omit names in
theorem repr_noColon (n : ℕ) : ':' ∉ n.repr.toList := by
  rw [Nat.toList_repr]
  intro hcolon
  have hdigit := Nat.isDigit_of_mem_toDigits (by decide) (by decide) hcolon
  exact absurd hdigit (by decide)

def decimal : KeyNames :=
  ⟨Nat.repr, Nat.repr, Nat.repr, Nat.repr, repr_injective, repr_injective, repr_injective,
    repr_injective, repr_noColon⟩

theorem replay_inj {user user' : UserId} {slice slice' : ℕ}
    (h : names.userId user ++ ":" ++ slice.repr = names.userId user' ++ ":" ++ slice'.repr) :
    user = user' ∧ slice = slice' := by
  have hlists : (names.userId user).toList ++ ':' :: slice.repr.toList =
      (names.userId user').toList ++ ':' :: slice'.repr.toList := by
    simpa [String.toList_append] using congrArg String.toList h
  obtain ⟨huser, hslice⟩ := PyText.append_cons_inj (names.noColon user) (names.noColon user') hlists
  exact ⟨names.userId_injective (String.toList_injective huser),
    repr_injective (String.toList_injective hslice)⟩

theorem text_injective : Function.Injective names.text := by
  intro key key' h
  obtain ⟨hpattern, hrest⟩ := KeyPattern.text_inj h
  cases key <;> cases key' <;> cases hpattern
  · rw [names.jti_injective hrest]
  · rw [names.state_injective hrest]
  · rw [names.userId_injective hrest]
  · rw [names.token_injective hrest]
  · obtain ⟨rfl, rfl⟩ := names.replay_inj hrest
    rfl
  · rw [names.jti_injective hrest]
  · rfl

instance : Inhabited KeyNames := ⟨decimal⟩

example : decimal.text (.twoFactorReplay 7 57) = "2fa:replay:7:57" := by decide +kernel

end KeyNames

/-! ## The keys of the others -/

/-- The arguments are texts of any form: a client chooses the header `Idempotency-Key` and the
platform that it asks about. -/
inductive OtherKey
  | rolesCache
  | appVersionCache (platform : String)
  | appVersionsAllCache
  | idempotencyLock (key : String)
  | idempotencyResponse (key : String)
  | apiKeyCache (hashedKey : String)
  | apiKeyLastUsedLock (id : String)
  | scheduleData
  | scheduleVersion
  deriving DecidableEq, Repr

namespace OtherKey

def pattern : OtherKey → KeyPattern
  | .rolesCache => .rolesCache
  | .appVersionCache _ => .appVersionCache
  | .appVersionsAllCache => .appVersionsAllCache
  | .idempotencyLock _ => .idempotencyLock
  | .idempotencyResponse _ => .idempotencyResponse
  | .apiKeyCache _ => .apiKeyCache
  | .apiKeyLastUsedLock _ => .apiKeyLastUsedLock
  | .scheduleData => .scheduleData
  | .scheduleVersion => .scheduleVersion

def rest : OtherKey → String
  | .appVersionCache platform => platform
  | .idempotencyLock key => key
  | .idempotencyResponse key => key
  | .apiKeyCache hashedKey => hashedKey
  | .apiKeyLastUsedLock id => id
  | _ => ""

def text (key : OtherKey) : String := key.pattern.literal ++ key.rest

theorem text_injective : Function.Injective text := by
  intro key key' h
  obtain ⟨hpattern, hrest⟩ := KeyPattern.text_inj h
  cases key <;> cases key' <;> cases hpattern <;>
    first
      | rfl
      | exact congrArg _ hrest

theorem text_ne (names : KeyNames) (key : RedisKey) (other : OtherKey) :
    names.text key ≠ other.text := by
  intro h
  have hpattern := (KeyPattern.text_inj h).1
  cases key <;> cases other <;> cases hpattern

end OtherKey

/-! ## The common store -/

structure ValueFormat (V : Type) where
  encode : RedisValue → V
  decode : V → Option RedisValue
  decode_encode : ∀ value, decode (encode value) = some value

structure Shared (V : Type) where
  db : Database
  redis : ExpiringStore String V
  clock : ℕ
  nextId : ℕ

/-- The values of the requests beside texts of the others. -/
instance : Inhabited (ValueFormat (RedisValue ⊕ String)) := ⟨⟨.inl, Sum.getLeft?, fun _ => rfl⟩⟩

/-- Time passes, or another part of the program writes: it replaces what it has under a key of its
own, or removes it. -/
inductive SharedEvent (V : Type)
  | advance (d : ℕ)
  | write (key : OtherKey) (entry : Option (StoreEntry V))

variable {V : Type}

namespace SharedEvent

def seen : SharedEvent V → Option ℕ
  | .advance d => some d
  | .write .. => none

def written : PoolMove Op (SharedEvent V) → Option (OtherKey × Option (StoreEntry V))
  | .environment (.write key entry) => some (key, entry)
  | _ => none

end SharedEvent

namespace Shared

variable (names : KeyNames) (format : ValueFormat V)

def advance (d : ℕ) (s : Shared V) : Shared V := { s with clock := s.clock + d }

def environment : SharedEvent V → Shared V → Shared V
  | .advance d, s => s.advance d
  | .write key entry, s => { s with redis := Function.update s.redis key.text entry }

def redisSet (key : RedisKey) (value : RedisValue) (ex : ℤ) (s : Shared V) :
    Except AppError Unit × Shared V :=
  if ex ≤ 0 then (.error (.redis "invalid expire time in 'set' command"), s)
  else
    let expiresAt := s.clock + ex.toNat * second
    (.ok (), { s with redis := s.redis.set (names.text key) (format.encode value) expiresAt })

/-- The calls to Redis go to the common store, the others do not touch it. -/
def handler : (c : Call) → Shared V → c.Answer × Shared V
  | .redisGet key, s => ((s.redis.get s.clock (names.text key)).bind format.decode, s)
  | .redisSet key value ex, s => s.redisSet names format key value ex
  | .redisDelete key, s => ((), { s with redis := s.redis.delete (names.text key) })
  | c, s =>
    let answered := FastapiTemplate.handler c ⟨s.db, .empty, s.clock, s.nextId⟩
    (answered.1, ⟨answered.2.db, s.redis, answered.2.clock, answered.2.nextId⟩)

def view (s : Shared V) : State where
  db := s.db
  redis := s.redis.family names.text format.decode
  clock := s.clock
  nextId := s.nextId

def others (s : Shared V) : ExpiringStore OtherKey V := fun key => s.redis key.text

def writeOther (st : ExpiringStore OtherKey V) (written : OtherKey × Option (StoreEntry V)) :
    ExpiringStore OtherKey V :=
  Function.update st written.1 written.2

theorem others_redisSet (s : Shared V) (key : RedisKey) (value : RedisValue) (ex : ℤ) :
    (s.redisSet names format key value ex).2.others = s.others := by
  unfold redisSet
  split_ifs
  · rfl
  · funext other
    exact ExpiringStore.set_of_ne _ (OtherKey.text_ne names key other).symm _ _

theorem others_delete (s : Shared V) (key : RedisKey) :
    others { s with redis := s.redis.delete (names.text key) } = s.others := by
  funext other
  exact ExpiringStore.delete_of_ne _ (OtherKey.text_ne names key other).symm

theorem others_environment (e : SharedEvent V) (s : Shared V) : (environment e s).others =
    run writeOther s.others (SharedEvent.written (.environment e)).toList := by
  cases e with
  | advance d => rfl
  | write key entry =>
    funext other
    change Function.update s.redis key.text entry other.text =
      Function.update s.others key entry other
    by_cases hother : other = key
    · rw [hother, Function.update_self, Function.update_self]
    · rw [Function.update_of_ne (OtherKey.text_injective.ne hother), Function.update_of_ne hother,
        others]

theorem view_redisSet (s : Shared V) (key : RedisKey) (value : RedisValue) (ex : ℤ) :
    (s.redisSet names format key value ex).1 = ((view names format s).redisSet key value ex).1 ∧
      view names format (s.redisSet names format key value ex).2 =
        ((view names format s).redisSet key value ex).2 := by
  unfold redisSet State.redisSet
  split_ifs
  · exact ⟨rfl, rfl⟩
  · have hset := s.redis.family_set names.text_injective format.decode_encode key value
      (some (s.clock + ex.toNat * second))
    exact ⟨rfl, congrArg (fun redis => (⟨s.db, redis, s.clock, s.nextId⟩ : State)) hset⟩

theorem others_handler (c : Call) (s : Shared V) :
    (handler names format c s).2.others = s.others := by
  cases c with
  | redisSet key value ex => exact others_redisSet names format s key value ex
  | redisDelete key => exact others_delete names s key
  | _ => rfl

section system
variable [External]

def requests : PoolSystem Call Call.Answer AppError Response Op (SharedEvent V) (Shared V) where
  handler := handler names format
  environment := environment
  program := Op.program

theorem requests_refines : (requests names format).Refines FastapiTemplate.requests
    (view names format) SharedEvent.seen where
  program := rfl
  answer c s := by
    cases c with
    | redisGet key => exact (s.redis.get_family s.clock key).symm
    | redisSet key value ex => exact (view_redisSet names format s key value ex).1
    | _ => rfl
  state c s := by
    cases c with
    | redisSet key value ex => exact (view_redisSet names format s key value ex).2
    | redisDelete key =>
      have hdelete : (s.redis.delete (names.text key)).family names.text format.decode =
          (s.redis.family names.text format.decode).delete key :=
        s.redis.family_delete names.text_injective key
      exact congrArg (fun redis => (⟨s.db, redis, s.clock, s.nextId⟩ : State)) hdelete
    | _ => rfl
  environment e s := by
    cases e with
    | advance d => rfl
    | write key entry =>
      have hwrite : ExpiringStore.family names.text format.decode
          (Function.update s.redis key.text entry) = s.redis.family names.text format.decode :=
        s.redis.family_update_of_notMem (fun own => OtherKey.text_ne names own key) entry
      exact congrArg (fun redis => (⟨s.db, redis, s.clock, s.nextId⟩ : State)) hwrite

theorem others_step (p : Pool Call Call.Answer AppError Response Op (Shared V))
    (m : PoolMove Op (SharedEvent V)) : ((requests names format).step p m).state.others =
      run writeOther p.state.others (SharedEvent.written m).toList := by
  have hcase := (requests names format).step_cases p m
  generalize (requests names format).step p m = q at hcase ⊢
  cases hcase with
  | spawn op => rfl
  | environment e => exact others_environment e p.state
  | idle i => rfl
  | call hth hrest => exact others_handler names format _ p.state

/-- The requests run as over a store of their own, and the others keep theirs. -/
theorem shared_run (p : Pool Call Call.Answer AppError Response Op (Shared V))
    (ms : List (PoolMove Op (SharedEvent V))) :
    (run (requests names format).step p ms).over (view names format) =
        run FastapiTemplate.requests.step (p.over (view names format))
          (ms.filterMap (PoolMove.seen SharedEvent.seen)) ∧
      (run (requests names format).step p ms).state.others =
        run writeOther p.state.others (ms.filterMap SharedEvent.written) := by
  refine ⟨(requests_refines names format).run p ms, ?_⟩
  induction ms generalizing p with
  | nil => rfl
  | cons m ms ih =>
    rw [run_cons, ih, others_step, ← run_append]
    cases hm : SharedEvent.written m with
    | none => rw [List.filterMap_cons_none hm]; rfl
    | some written => rw [List.filterMap_cons_some hm]; rfl

end system
end Shared

end FastapiTemplate.RedisKeySpace
