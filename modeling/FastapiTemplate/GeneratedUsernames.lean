import FastapiTemplate.AuthService
import Mathlib.Data.Fintype.Basic
import Mathlib.Data.List.TakeWhile
import Mathlib.Tactic.FinCases

/-!
# Generated usernames

`_generate_unique_username` makes a slug of the base name and tries it, then up to a hundred times
the slug with a random suffix. Nothing in it depends on the width of the column `users.username`,
which the slug of a long name exceeds.
-/

namespace FastapiTemplate

/-! ## The slug -/

def inSlugClass (c : Char) : Bool := ('a' ≤ c ∧ c ≤ 'z') ∨ ('0' ≤ c ∧ c ≤ '9')

/-- The hyphen before a letter or digit that comes after another one and a gap. -/
def gapHyphen (started gap : Bool) : List Char := if started && gap then ['-'] else []

/-- The letters and digits, with a hyphen in place of the other characters between two of them. -/
def slugChars (started gap : Bool) : List Char → List Char
  | [] => []
  | c :: rest =>
    if inSlugClass c then gapHyphen started gap ++ c :: slugChars true false rest
    else slugChars started true rest

/-- One for each letter or digit, and one for each gap between two of them. -/
def slugWidth (started gap : Bool) : List Char → ℕ
  | [] => 0
  | c :: rest =>
    if inSlugClass c then (if started && gap then 1 else 0) + 1 + slugWidth true false rest
    else slugWidth started true rest

theorem length_slugChars (started gap : Bool) (cs : List Char) :
    (slugChars started gap cs).length = slugWidth started gap cs := by
  induction cs generalizing started gap with
  | nil => rfl
  | cons c rest ih =>
    unfold slugChars slugWidth
    split_ifs with hc hgap
    · rw [List.length_append, List.length_cons, ih, gapHyphen, if_pos hgap]
      simp only [List.length_singleton]
      omega
    · rw [List.length_append, List.length_cons, ih, gapHyphen, if_neg hgap]
      simp only [List.length_nil]
      omega
    · exact ih started true

theorem mem_slugChars {started gap : Bool} {cs : List Char} {c : Char}
    (hc : c ∈ slugChars started gap cs) : inSlugClass c = true ∨ c = '-' := by
  induction cs generalizing started gap with
  | nil => cases hc
  | cons d rest ih =>
    unfold slugChars at hc
    split_ifs at hc with hd
    · rcases List.mem_append.mp hc with hhyphen | hc
      · right
        unfold gapHyphen at hhyphen
        split_ifs at hhyphen
        · exact List.mem_singleton.mp hhyphen
        · cases hhyphen
      · rcases List.mem_cons.mp hc with rfl | hc
        · exact .inl hd
        · exact ih hc
    · exact ih hc

/-- `.strip("-")` of the characters that the substitution has left, the last one first. -/
def stripHyphens (acc : List Char) : List Char :=
  (acc.dropWhile (· = '-')).reverse.dropWhile (· = '-')

def substituted (acc : List Char) (c : Char) : List Char :=
  if ('a' ≤ c ∧ c ≤ 'z') ∨ ('0' ≤ c ∧ c ≤ '9') then c :: acc
  else if acc.head? = some '-' then acc else '-' :: acc

theorem slugify_eq [External] (baseName : String) : AuthService.slugify baseName =
    String.ofList (stripHyphens ((External.lower baseName).toList.foldl substituted [])) := rfl

theorem ne_hyphen {c : Char} (hc : inSlugClass c = true) : c ≠ '-' := by
  rintro rfl
  exact absurd hc (by decide)

/-- What the substitution has left when a letter or digit has been seen, and when not. -/
def SubstitutedTo : (started gap : Bool) → List Char → Prop
  | false, gap, acc => acc = if gap then ['-'] else []
  | true, gap, acc => ∃ c rest, inSlugClass c = true ∧ acc = if gap then '-' :: c :: rest else c :: rest

theorem SubstitutedTo.head {started gap : Bool} {acc : List Char} (h : SubstitutedTo started gap acc) :
    acc.head? = some '-' ↔ gap = true := by
  cases started with
  | false => cases gap <;> simp_all [SubstitutedTo]
  | true =>
    obtain ⟨c, rest, hc, hacc⟩ := h
    have hne := ne_hyphen hc
    cases gap <;> simp_all

theorem SubstitutedTo.gap {started gap : Bool} {acc : List Char} (h : SubstitutedTo started gap acc)
    {c : Char} (hc : inSlugClass c = false) : SubstitutedTo started true (substituted acc c) := by
  have hother : ¬ (('a' ≤ c ∧ c ≤ 'z') ∨ ('0' ≤ c ∧ c ≤ '9')) := of_decide_eq_false hc
  unfold substituted
  rw [if_neg hother]
  cases gap with
  | true =>
    rw [if_pos (h.head.mpr rfl)]
    exact h
  | false =>
    rw [if_neg (fun hhead => absurd (h.head.mp hhead) Bool.false_ne_true)]
    cases started with
    | false =>
      obtain rfl : acc = [] := h
      rfl
    | true =>
      obtain ⟨d, rest, hd, hacc⟩ := h
      exact ⟨d, rest, hd, congrArg ('-' :: ·) hacc⟩

/-- A hyphen at the end goes as long as no letter or digit follows. -/
theorem stripHyphens_gap (acc : List Char) {c : Char} (hc : inSlugClass c = false) :
    stripHyphens (substituted acc c) = stripHyphens acc := by
  have hother : ¬ (('a' ≤ c ∧ c ≤ 'z') ∨ ('0' ≤ c ∧ c ≤ '9')) := of_decide_eq_false hc
  unfold substituted
  rw [if_neg hother]
  split_ifs
  · rfl
  · simp [stripHyphens]

theorem stripHyphens_cons {started gap : Bool} {acc : List Char} (h : SubstitutedTo started gap acc)
    {c : Char} (hc : inSlugClass c = true) :
    stripHyphens (c :: acc) = stripHyphens acc ++ (gapHyphen started gap ++ [c]) := by
  have hne := ne_hyphen hc
  cases started with
  | false =>
    cases gap with
    | false =>
      obtain rfl : acc = [] := h
      simp [stripHyphens, gapHyphen, hne]
    | true =>
      obtain rfl : acc = ['-'] := h
      simp [stripHyphens, gapHyphen, hne]
  | true =>
    obtain ⟨d, rest, hd, hacc⟩ := h
    have hdne := ne_hyphen hd
    -- the first letter or digit ends the hyphens at the front
    have hfront : ∀ tail : List Char, (rest.reverse ++ [d] ++ tail).dropWhile (· = '-') =
        (rest.reverse ++ [d]).dropWhile (· = '-') ++ tail := by
      intro tail
      have hfound : (rest.reverse ++ [d]).dropWhile (· = '-') ≠ [] := by
        intro hnil
        exact hdne (of_decide_eq_true (List.dropWhile_eq_nil_iff.mp hnil d (by simp)))
      rw [List.dropWhile_append, if_neg (by simpa [List.isEmpty_iff] using hfound)]
    cases gap with
    | false =>
      obtain rfl : acc = d :: rest := hacc
      have hsingle := hfront [c]
      simp only [stripHyphens, gapHyphen, List.reverse_cons, List.dropWhile_cons, hne, hdne,
        decide_false, Bool.and_false, Bool.false_eq_true, if_false, List.nil_append]
      exact hsingle
    | true =>
      obtain rfl : acc = '-' :: d :: rest := hacc
      have hpair := hfront ['-', c]
      simp only [stripHyphens, gapHyphen, List.reverse_cons, List.dropWhile_cons, hne, hdne,
        decide_false, decide_true, Bool.and_self, Bool.false_eq_true, if_false, if_true]
      rw [List.append_assoc (rest.reverse ++ [d])]
      exact hpair

theorem stripHyphens_foldl (cs : List Char) {started gap : Bool} {acc : List Char}
    (h : SubstitutedTo started gap acc) :
    stripHyphens (cs.foldl substituted acc) = stripHyphens acc ++ slugChars started gap cs := by
  induction cs generalizing started gap acc with
  | nil => simp [slugChars]
  | cons c rest ih =>
    rw [List.foldl_cons]
    unfold slugChars
    cases hc : inSlugClass c with
    | true =>
      have hstep : substituted acc c = c :: acc := if_pos (of_decide_eq_true hc)
      have hnext : SubstitutedTo true false (c :: acc) := ⟨c, acc, hc, rfl⟩
      rw [hstep, ih hnext, stripHyphens_cons h hc, if_pos rfl]
      simp
    | false =>
      rw [ih (h.gap hc), stripHyphens_gap acc hc, if_neg Bool.false_ne_true]

/-! ## The search -/

/-- The calls, with the numbers of the random source taken from a sequence. -/
def drawing (seeds : ℕ → ℕ) : (c : Call) → State × ℕ → c.Answer × (State × ℕ)
  | .draw, (s, n) => (seeds n, s, n + 1)
  | c, (s, n) => ((handler c s).1, (handler c s).2, n)

def State.isFree (s : State) (username : String) : Bool :=
  (s.db.selectUser (.username username)).isNone

namespace AuthService

def suffixedName (username : String) (seed : ℕ) : String := username ++ "-" ++ drawnSuffix seed

def noUniqueUsername : AppError := .value "Could not generate a unique username after 100 attempts."

section search
variable {seeds : ℕ → ℕ} {s : State} {n : ℕ} {username : String}

def tryName (name : String) (next : App String) : App String :=
  App.ask (.selectUser (.username name)) >>= fun found =>
    if found.isNone then pure name else next

theorem execute_tryName (name : String) (next : App String) :
    (tryName name next).execute (drawing seeds) (s, n) =
      if s.isFree name then (.ok name, s, n) else next.execute (drawing seeds) (s, n) := by
  have hlookup : (tryName name next).execute (drawing seeds) (s, n) =
      Program.execute (drawing seeds) (if s.isFree name then pure name else next) (s, n) := rfl
  rw [hlookup]
  split_ifs <;> rfl

theorem findFreeUsername_succ (attempts : ℕ) : findFreeUsername username (attempts + 1) =
    App.ask .draw >>= fun seed =>
      tryName (suffixedName username seed) (findFreeUsername username attempts) := by
  rw [findFreeUsername]
  refine congrArg (App.ask .draw >>= ·) (funext fun seed => ?_)
  refine congrArg (App.ask (.selectUser (.username (suffixedName username seed))) >>= ·) ?_
  funext found
  cases found <;> rfl

/-- One more attempt of the loop. -/
theorem execute_findFreeUsername_succ (attempts : ℕ) :
    (findFreeUsername username (attempts + 1)).execute (drawing seeds) (s, n) =
      if s.isFree (suffixedName username (seeds n)) then
        (.ok (suffixedName username (seeds n)), s, n + 1)
      else (findFreeUsername username attempts).execute (drawing seeds) (s, n + 1) := by
  rw [findFreeUsername_succ]
  exact execute_tryName _ _

/-- The loop ends with the first suffix whose name is free. -/
inductive Found (seeds : ℕ → ℕ) (s : State) (username : String) (n attempts : ℕ) :
    Except AppError String × (State × ℕ) → Prop
  | free (i : ℕ) (hi : i < attempts) (hfree : s.isFree (suffixedName username (seeds (n + i)))) :
      Found seeds s username n attempts
        (.ok (suffixedName username (seeds (n + i))), s, n + i + 1)
  | taken (htaken : ∀ i < attempts, s.isFree (suffixedName username (seeds (n + i))) = false) :
      Found seeds s username n attempts (.error noUniqueUsername, s, n + attempts)

theorem found_findFreeUsername (attempts : ℕ) : Found seeds s username n attempts
    ((findFreeUsername username attempts).execute (drawing seeds) (s, n)) := by
  induction attempts generalizing n with
  | zero => exact .taken (fun i hi => absurd hi (Nat.not_lt_zero i))
  | succ attempts ih =>
    rw [execute_findFreeUsername_succ]
    split_ifs with hfree
    · exact .free 0 (Nat.succ_pos _) hfree
    · have hrest := ih (n := n + 1)
      generalize (findFreeUsername username attempts).execute (drawing seeds) (s, n + 1) = r at hrest
      cases hrest with
      | free i hi hlater =>
        have hshift : n + 1 + i = n + (i + 1) := by omega
        rw [hshift] at hlater ⊢
        exact .free (i + 1) (by omega) hlater
      | taken htaken =>
        have hshift : n + 1 + attempts = n + (attempts + 1) := by omega
        rw [hshift]
        refine .taken (fun i hi => ?_)
        cases i with
        | zero => simpa using hfree
        | succ i =>
          have hlater := htaken i (by omega)
          rwa [Nat.add_right_comm n 1 i, Nat.add_assoc] at hlater

end search

theorem length_drawnSuffix (seed : ℕ) : (drawnSuffix seed).length = 4 := by
  simp [drawnSuffix]

theorem mem_drawnSuffix {seed : ℕ} {c : Char} (hc : c ∈ (drawnSuffix seed).toList) :
    inSlugClass c = true := by
  have hclass : ∀ k < 36, inSlugClass
      ("abcdefghijklmnopqrstuvwxyz0123456789".toList.getD k 'a') = true := by decide
  unfold drawnSuffix at hc
  rw [String.toList_ofList] at hc
  obtain ⟨i, -, rfl⟩ := List.mem_map.mp hc
  exact hclass _ (Nat.mod_lt _ (by omega))

/-- Every suffix is drawn for some number. -/
theorem exists_drawnSuffix (letters : Fin 4 → Fin 36) : ∃ seed, drawnSuffix seed =
    String.ofList ((List.finRange 4).map
      (fun i => "abcdefghijklmnopqrstuvwxyz0123456789".toList.getD (letters i) 'a')) := by
  refine ⟨letters 0 + 36 * (letters 1 + 36 * (letters 2 + 36 * letters 3)), ?_⟩
  have h0 := (letters 0).isLt
  have h1 := (letters 1).isLt
  have h2 := (letters 2).isLt
  have h3 := (letters 3).isLt
  have hdigits : ∀ i : Fin 4,
      ((letters 0 : ℕ) + 36 * (letters 1 + 36 * (letters 2 + 36 * letters 3))) / 36 ^ (i : ℕ) % 36 =
        letters i := by
    intro i
    fin_cases i <;> simp <;> omega
  have hrange : List.range 4 = (List.finRange 4).map Fin.val := rfl
  rw [drawnSuffix, hrange, List.map_map]
  refine congrArg String.ofList (List.map_congr_left (fun i _ => ?_))
  simp only [Function.comp_apply]
  rw [hdigits i]

/-! ## What fits -/

variable [External]

def firstName (baseName : String) : String :=
  if slugify baseName = "" then "user" else slugify baseName

/-- The letters and digits of the base name and the gaps between them, or `user` for none. -/
def usernameWidth (baseName : String) : ℕ :=
  let width := slugWidth false false (External.lower baseName).toList
  if width = 0 then 4 else width

structure Storable (s : State) (name : String) : Prop where
  nonempty : name ≠ ""
  characters : ∀ c ∈ name.toList, inSlugClass c = true ∨ c = '-'
  free : s.isFree name = true
  fits : name.length ≤ 50

abbrev generated (baseName : String) (seeds : ℕ → ℕ) (s : State) :
    Except AppError String × (State × ℕ) :=
  (generateUniqueUsername baseName).execute (drawing seeds) (s, 0)

structure GeneratesStorable (baseName : String) (seeds : ℕ → ℕ) (s : State) : Prop where
  ends : (∃ name, (generated baseName seeds s).1 = .ok name) ∨
    (generated baseName seeds s).1 = .error noUniqueUsername
  attempts : (generated baseName seeds s).2.2 ≤ 100
  storable : ∀ name, (generated baseName seeds s).1 = .ok name → Storable s name

/-- The slug has at most 50 characters if it is free, and at most 45 if a suffix is to follow. -/
def FitsColumn (baseName : String) (seeds : ℕ → ℕ) (s : State) : Prop :=
  if s.isFree (firstName baseName) then usernameWidth baseName ≤ 50
  else (∃ i < 100, s.isFree (suffixedName (firstName baseName) (seeds i)) = true) →
    usernameWidth baseName ≤ 45

section names
variable (baseName : String)

theorem slugify_toList :
    (slugify baseName).toList = slugChars false false (External.lower baseName).toList := by
  have hempty : SubstitutedTo false false [] := rfl
  rw [slugify_eq, String.toList_ofList, stripHyphens_foldl _ hempty]
  rfl

theorem length_slugify :
    (slugify baseName).length = slugWidth false false (External.lower baseName).toList := by
  rw [← length_slugChars, ← slugify_toList, String.length_toList]

theorem length_firstName : (firstName baseName).length = usernameWidth baseName := by
  unfold firstName usernameWidth
  rw [← length_slugify]
  have hzero : (slugify baseName).length = 0 ↔ slugify baseName = "" := String.length_eq_zero_iff
  by_cases hempty : slugify baseName = ""
  · rw [if_pos hempty, if_pos (hzero.mpr hempty)]
    rfl
  · rw [if_neg hempty, if_neg (fun h => hempty (hzero.mp h))]

theorem mem_firstName {c : Char} (hc : c ∈ (firstName baseName).toList) :
    inSlugClass c = true ∨ c = '-' := by
  unfold firstName at hc
  split_ifs at hc
  · have huser : ∀ c ∈ "user".toList, inSlugClass c = true := List.all_eq_true.mp (by decide)
    exact .inl (huser c hc)
  · rw [slugify_toList] at hc
    exact mem_slugChars hc

theorem firstName_ne_empty : firstName baseName ≠ "" := by
  unfold firstName
  split_ifs with hempty
  · decide
  · exact hempty

theorem length_suffixedName (seed : ℕ) :
    (suffixedName (firstName baseName) seed).length = usernameWidth baseName + 5 := by
  rw [suffixedName, String.length_append, String.length_append, length_firstName,
    length_drawnSuffix]
  rfl

theorem mem_suffixedName {seed : ℕ} {c : Char}
    (hc : c ∈ (suffixedName (firstName baseName) seed).toList) :
    inSlugClass c = true ∨ c = '-' := by
  rw [suffixedName, String.toList_append, String.toList_append] at hc
  rcases List.mem_append.mp hc with hc | hc
  · rcases List.mem_append.mp hc with hc | hc
    · exact mem_firstName baseName hc
    · exact .inr (List.mem_singleton.mp hc)
  · exact .inl (mem_drawnSuffix hc)

end names

theorem storable_firstName {baseName : String} {s : State}
    (hfree : s.isFree (firstName baseName) = true) :
    Storable s (firstName baseName) ↔ usernameWidth baseName ≤ 50 := by
  rw [← length_firstName]
  constructor
  · exact fun h => h.fits
  · exact fun h => ⟨firstName_ne_empty baseName, fun _ => mem_firstName baseName, hfree, h⟩

theorem storable_suffixedName {baseName : String} {s : State} {seed : ℕ}
    (hfree : s.isFree (suffixedName (firstName baseName) seed) = true) :
    Storable s (suffixedName (firstName baseName) seed) ↔ usernameWidth baseName ≤ 45 := by
  have hlength := length_suffixedName baseName seed
  constructor
  · intro h
    have hfits := h.fits
    omega
  · intro h
    refine ⟨?_, fun _ => mem_suffixedName baseName, hfree, by omega⟩
    intro hempty
    rw [hempty] at hlength
    simp at hlength

theorem generated_eq (baseName : String) (seeds : ℕ → ℕ) (s : State) :
    generated baseName seeds s =
      if s.isFree (firstName baseName) then (.ok (firstName baseName), s, 0)
      else (findFreeUsername (firstName baseName) 100).execute (drawing seeds) (s, 0) := by
  have hprogram : generateUniqueUsername baseName =
      tryName (firstName baseName) (findFreeUsername (firstName baseName) 100) := by
    refine congrArg (App.ask (.selectUser (.username (firstName baseName))) >>= ·) ?_
    funext found
    cases found <;> rfl
  rw [generated, hprogram, execute_tryName]

/-- A generated name can be stored exactly if the slug, with the suffix if one is needed, is not
wider than the column. -/
theorem generateUniqueUsername_storable_iff (baseName : String) (seeds : ℕ → ℕ) (s : State) :
    GeneratesStorable baseName seeds s ↔ FitsColumn baseName seeds s := by
  have heq := generated_eq baseName seeds s
  unfold FitsColumn
  by_cases hfirst : s.isFree (firstName baseName) = true
  · rw [if_pos hfirst] at heq ⊢
    rw [← storable_firstName hfirst]
    constructor
    · exact fun h => h.storable _ (by rw [heq])
    · intro hstorable
      refine ⟨.inl ⟨_, by rw [heq]⟩, by simp [heq], fun name hname => ?_⟩
      rw [heq] at hname
      rw [← Except.ok.inj hname]
      exact hstorable
  · rw [if_neg hfirst] at heq ⊢
    have hfound : Found seeds s (firstName baseName) 0 100 (generated baseName seeds s) := by
      rw [heq]
      exact found_findFreeUsername 100
    generalize hrun : generated baseName seeds s = r at hfound
    cases hfound with
    | free i hi hfree =>
      simp only [Nat.zero_add] at hrun hfree
      constructor
      · intro h _
        exact (storable_suffixedName hfree).mp (h.storable _ (by rw [hrun]))
      · intro h
        have hdraws : i + 1 ≤ 100 := by omega
        refine ⟨.inl ⟨_, by rw [hrun]⟩, by rw [hrun]; exact hdraws, fun name hname => ?_⟩
        rw [hrun] at hname
        rw [← Except.ok.inj hname]
        exact (storable_suffixedName hfree).mpr (h ⟨i, hi, hfree⟩)
    | taken htaken =>
      constructor
      · rintro - ⟨i, hi, hfree⟩
        have hnot := htaken i hi
        rw [Nat.zero_add, hfree] at hnot
        cases hnot
      · intro _
        refine ⟨.inr (by rw [hrun]), by rw [hrun], fun name hname => ?_⟩
        rw [hrun] at hname
        cases hname

omit [External] in
def noUsers : State := ⟨{}, .empty, 0, 1⟩

omit [External] in
/-- The name of 51 letters is free and does not fit. -/
theorem generateUniqueUsername_not_storable :
    letI := External.plain
    let baseName := String.ofList (List.replicate 51 'a')
    (generated baseName (fun _ => 0) noUsers).1 = .ok baseName ∧
      ¬ GeneratesStorable baseName (fun _ => 0) noUsers := by
  let _ := External.plain
  intro baseName
  have hfirst : firstName baseName = baseName := by decide +kernel
  have hfree : noUsers.isFree (firstName baseName) = true := rfl
  have hrun : (generated baseName (fun _ => 0) noUsers).1 = .ok baseName := by
    rw [generated_eq, if_pos hfree, hfirst]
  refine ⟨hrun, fun h => ?_⟩
  have hfits := (h.storable baseName hrun).fits
  exact absurd hfits (by decide +kernel)

end AuthService
end FastapiTemplate
