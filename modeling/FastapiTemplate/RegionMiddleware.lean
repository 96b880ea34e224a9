import FastapiTemplate.Dictionaries
import FastapiTemplate.AccountStatements

/-!
# The region of a client

`api/middlewares/region_middleware.py`: before every request the middleware decodes all headers,
chooses one of them, and sets the region for the time of the call of the application. A header that
is not UTF-8 raises an exception before the application is called.
-/

namespace FastapiTemplate.RegionMiddleware

/-! ## Context variables -/

/-- A `ContextVar` of optional texts, or `none` where it is not set. -/
abbrev ContextVar := Option (Option String)

structure Token where
  oldValue : ContextVar

def ContextVar.set (var : ContextVar) (value : Option String) : Token × ContextVar :=
  (⟨var⟩, some value)

def ContextVar.reset (_ : ContextVar) (token : Token) : ContextVar := token.oldValue

/-! ## Scopes and applications -/

structure Scope where
  type : String
  headers : Option (List (List UInt8 × List UInt8))
  state : Option (List (String × PyValue))

inductive Outcome
  | returned
  | raised (exception : String)
  deriving DecidableEq, Repr

/-- An application may change the variable. -/
abbrev Application := Scope → ContextVar → Outcome × ContextVar

structure Called where
  calls : List (Scope × ContextVar)
  outcome : Outcome
  after : ContextVar

/-! ## The middleware -/

/-- `bytes.decode()`, which raises a `UnicodeDecodeError` for bytes that are not UTF-8. -/
def decode (bytes : List UInt8) : Option String := String.fromUTF8? ⟨bytes.toArray⟩

/-- `text.lower()`. No character becomes a line feed. -/
structure Lowering where
  lower : String → String
  lineFeed : ∀ s, (lower s).toList.getLast? = some '\n' → s.toList.getLast? = some '\n'

def get? {ν : Type} (items : List (String × ν)) (key : String) : Option ν :=
  (items.find? (·.1 = key)).map (·.2)

def defaultRegionMap : List (String × String) :=
  [("in", "ap-south"), ("india", "ap-south"), ("us", "us-east"), ("gb", "eu-west"),
    ("uk", "eu-west"), ("eu", "eu-west")]

def defaultHeaderNames : List String := ["x-geo-region", "x-cloud-region", "x-country"]

def regionMap (mapping : Option (List (String × String))) : List (String × String) :=
  if mapping.getD [] = [] then defaultRegionMap else mapping.getD []

def isRegionChar (c : Char) : Bool := ('a' ≤ c && c ≤ 'z') || c.isDigit || c = '-' || c = '_'

/-- `^[a-z0-9\-_]+$`, where `$` also matches before a line feed at the end. -/
def whitelisted (v : String) : Bool :=
  let line := if v.toList.getLast? = some '\n' then v.toList.dropLast else v.toList
  line ≠ [] && line.all isRegionChar

structure RegionASGIMiddleware where
  headerNames : List String
  mapping : List (String × String)
  deriving DecidableEq, Repr

namespace RegionASGIMiddleware

variable (low : Lowering)

def init (headerNames : List String) (mapping : Option (List (String × String))) :
    RegionASGIMiddleware where
  headerNames := headerNames.map low.lower
  mapping := dictOf ((regionMap mapping).map (fun kv => (low.lower kv.1, kv.2)))

def headersDict (scope : Scope) : Option (List (String × String)) :=
  ((scope.headers.getD []).mapM fun kv =>
    (decode kv.1).bind fun k => (decode kv.2).map fun v => (low.lower k, v)).map dictOf

variable (m : RegionASGIMiddleware)

def normalizeMap (raw : String) : Option String :=
  if raw = "" then none
  else
    let v := low.lower (Sql.strip raw)
    if whitelisted v then some ((get? m.mapping v).getD v) else none

/-- The first of the headers that is not blank. -/
def chosenRaw (headers : List (String × String)) : Option String :=
  m.headerNames.findSome? fun h =>
    (get? headers h).filter (fun val => val ≠ "" && Sql.strip val ≠ "")

def withRegion (scope : Scope) (region : Option String) : Scope :=
  { scope with
    state := some (setItem (scope.state.getD [])
      ("client_region", region.elim .null PyValue.str)) }

def call (app : Application) (scope : Scope) (clientRegion : ContextVar) : Called :=
  match headersDict low scope with
  | none => ⟨[], .raised "UnicodeDecodeError", clientRegion⟩
  | some headers =>
    let region := (m.chosenRaw headers).bind (m.normalizeMap low)
    let set := clientRegion.set region
    let scope := withRegion scope region
    let result := app scope set.2
    ⟨[(scope, set.2)], result.1, ContextVar.reset result.2 set.1⟩

/-! ## Which headers can be decoded -/

def DecodedHeader (kv : List UInt8 × List UInt8) : Prop :=
  (decode kv.1).isSome = true ∧ (decode kv.2).isSome = true

theorem isSome_headersDict (scope : Scope) : (headersDict low scope).isSome = true ↔
    ∀ kv ∈ scope.headers.getD [], DecodedHeader kv := by
  rw [headersDict, Option.isSome_map]
  generalize scope.headers.getD [] = headers
  induction headers with
  | nil => simp [List.mapM_nil]
  | cons kv headers ih =>
    rw [List.forall_mem_cons, ← ih, List.mapM_cons, DecodedHeader]
    cases decode kv.1 <;> cases decode kv.2 <;>
      cases headers.mapM (fun kv => (decode kv.1).bind fun k =>
        (decode kv.2).map fun v => (low.lower k, v)) <;> simp

/-! ## Which region is set -/

/-- The region of a client: none, a value of the region map, or a text of the whitelist. -/
def Regular (mapping : Option (List (String × String))) : Option String → Prop
  | none => True
  | some region => region ∈ (regionMap mapping).map (·.2) ∨
      (region ≠ "" ∧ ∀ c ∈ region.toList, isRegionChar c = true)

theorem getLast?_strip (s : String) {c : Char} (h : (Sql.strip s).toList.getLast? = some c) :
    Sql.isSpace c = false := by
  rw [Sql.strip, String.toList_ofList, List.getLast?_reverse] at h
  have hhead := List.head?_dropWhile_not Sql.isSpace (s.toList.dropWhile Sql.isSpace).reverse
  rw [h] at hhead
  exact hhead

/-- Nothing is cut off at the end of a stripped value. -/
theorem regionChars_of_whitelisted {raw : String}
    (h : whitelisted (low.lower (Sql.strip raw)) = true) :
    low.lower (Sql.strip raw) ≠ "" ∧
      ∀ c ∈ (low.lower (Sql.strip raw)).toList, isRegionChar c = true := by
  have hline : (low.lower (Sql.strip raw)).toList.getLast? ≠ some '\n' := by
    intro hlast
    exact absurd (getLast?_strip raw (low.lineFeed _ hlast)) (by decide)
  rw [whitelisted, if_neg hline, Bool.and_eq_true, decide_eq_true_iff, List.all_eq_true] at h
  refine ⟨fun hempty => h.1 ?_, h.2⟩
  rw [hempty, String.toList_empty]

theorem mem_of_get? {ν : Type} {items : List (String × ν)} {key : String} {v : ν}
    (h : get? items key = some v) : (key, v) ∈ items := by
  obtain ⟨x, hx, rfl⟩ := Option.map_eq_some_iff.mp h
  have hkey := List.find?_some hx
  rw [← of_decide_eq_true hkey]
  exact List.mem_of_find?_eq_some hx

variable (headerNames : List String) (mapping : Option (List (String × String)))

theorem mem_init_mapping {key region : String}
    (h : (key, region) ∈ (init low headerNames mapping).mapping) :
    region ∈ (regionMap mapping).map (·.2) := by
  obtain ⟨kv, hkv, heq⟩ := List.mem_map.mp (mem_of_mem_dictOf h)
  exact List.mem_map.mpr ⟨kv, hkv, congrArg Prod.snd heq⟩

theorem regular_normalizeMap (raw : String) :
    Regular mapping ((init low headerNames mapping).normalizeMap low raw) := by
  unfold normalizeMap
  split_ifs with hraw
  · exact trivial
  · dsimp only
    split_ifs with hwhite
    · cases hget : get? (init low headerNames mapping).mapping (low.lower (Sql.strip raw)) with
      | some region => exact .inl (mem_init_mapping low headerNames mapping (mem_of_get? hget))
      | none => exact .inr (regionChars_of_whitelisted low hwhite)
    · exact trivial

/-- The application is called once, with a region that is regular, and the variable is as before
after it has returned or raised. -/
def Transparent (scope : Scope) : Prop :=
  ∀ (app : Application) (clientRegion : ContextVar), ∃ region, Regular mapping region ∧
    (init low headerNames mapping).call low app scope clientRegion =
      ⟨[(withRegion scope region, some region)],
        (app (withRegion scope region) (some region)).1, clientRegion⟩

theorem transparent_iff_decoded (scope : Scope) : Transparent low headerNames mapping scope ↔
    ∀ kv ∈ scope.headers.getD [], DecodedHeader kv := by
  rw [← isSome_headersDict low scope]
  constructor
  · intro h
    obtain ⟨region, -, hcall⟩ := h (fun _ var => (.returned, var)) none
    rw [call] at hcall
    cases hheaders : headersDict low scope with
    | none => rw [hheaders] at hcall; cases hcall
    | some headers => rfl
  · intro h app clientRegion
    obtain ⟨headers, hheaders⟩ := Option.isSome_iff_exists.mp h
    let m := init low headerNames mapping
    refine ⟨(m.chosenRaw headers).bind (m.normalizeMap low), ?_, ?_⟩
    · cases m.chosenRaw headers with
      | none => exact trivial
      | some raw => exact regular_normalizeMap low headerNames mapping raw
    · rw [call, hheaders]
      rfl

/-! ## A header that is not UTF-8 -/

theorem eq_lineFeed_of_toLower {c : Char} (h : c.toLower = '\n') : c = '\n' := by
  unfold Char.toLower at h
  split_ifs at h with hupper
  · have hval : (c.val + ('a'.val - 'A'.val)).toNat = 10 := congrArg Char.toNat h
    have hlow : 65 ≤ c.val.toNat := hupper.1
    have hhigh : c.val.toNat ≤ 90 := hupper.2
    rw [UInt32.toNat_add] at hval
    change (c.val.toNat + 32) % 2 ^ 32 = 10 at hval
    omega
  · exact h

def asciiLowering : Lowering where
  lower s := String.ofList (s.toList.map Char.toLower)
  lineFeed s h := by
    rw [String.toList_ofList, List.getLast?_map] at h
    obtain ⟨c, hc, hlower⟩ := Option.map_eq_some_iff.mp h
    rw [hc, eq_lineFeed_of_toLower hlower]

/-- `x-geo-region` with the value of one byte, `é` in Latin-1: the application is not called. -/
theorem not_transparent_latin1 : ¬ Transparent asciiLowering defaultHeaderNames none
    ⟨"http", some [("x-geo-region".toUTF8.data.toList, [0xE9])], none⟩ := by
  intro h
  obtain ⟨region, -, hcall⟩ := h (fun _ var => (.returned, var)) none
  have hheaders : headersDict asciiLowering
      ⟨"http", some [("x-geo-region".toUTF8.data.toList, [0xE9])], none⟩ = none := by
    decide
  rw [call, hheaders] at hcall
  cases hcall

end RegionASGIMiddleware

end FastapiTemplate.RegionMiddleware
