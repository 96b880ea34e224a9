import FastapiTemplate.ProgramPool

/-!
# Read-through caches in pools

Threads read through a cache: on a miss they fetch the value and then fill it in, and who changes
what holds evicts afterwards. Between the calls of one thread the others go on. What is cached
holds, or is about to be evicted, as long as every fill is in time.
-/

namespace FastapiTemplate

/-- What is cached, what holds, and which calls evict and fill an entry. -/
structure ReadThrough (C K V σ : Type) where
  cached : σ → K → Option V
  holds : σ → K → V → Prop
  evicts : C → K → Prop
  fills : C → K → V → Prop

namespace ReadThrough

variable {C : Type} {R : C → Type} {K V ε α T E σ : Type} (P : ReadThrough C K V σ)

def Evicting (p : Pool C R ε α T σ) (k : K) : Prop :=
  ∃ th ∈ p.threads, ∃ c, th.nextCall = some c ∧ P.evicts c k

def Fresh (p : Pool C R ε α T σ) : Prop :=
  ∀ k v, P.cached p.state k = some v → P.holds p.state k v ∨ P.Evicting p k

/-- Only fills add to the cache, and neither a fill nor the environment changes what holds. -/
structure Sound (S : PoolSystem C R ε α T E σ) : Prop where
  call : ∀ c s k v, P.cached (S.handler c s).2 k = some v →
    P.fills c k v ∨ P.cached s k = some v ∧ ¬ P.evicts c k
  fill : ∀ c s k v, P.fills c k v → P.holds s k v → P.holds (S.handler c s).2 k v
  fill_not_evicts : ∀ c k v, P.fills c k v → ∀ k', ¬ P.evicts c k'
  environment : ∀ e s k v, P.cached (S.environment e s) k = some v →
    P.cached s k = some v ∧ (P.holds s k v → P.holds (S.environment e s) k v)

def FillsInTime (p : Pool C R ε α T σ) (m : PoolMove T E) : Prop :=
  m.OfThread p (fun th => ∀ c, th.nextCall = some c → ∀ k v, P.fills c k v →
    P.holds p.state k v ∨ P.Evicting p k)

/-- A call after which something cached no longer holds is one of a thread that evicts it next. -/
def EvictsNext (S : PoolSystem C R ε α T E σ) (p : Pool C R ε α T σ) (m : PoolMove T E) : Prop :=
  m.OfThread p (fun _ => ∀ k v, P.cached p.state k = some v → P.holds p.state k v →
    P.holds (S.step p m).state k v ∨ P.Evicting (S.step p m) k)

variable {P} {S : PoolSystem C R ε α T E σ} {p : Pool C R ε α T σ}

theorem evicting_append {k : K} (th' : Thread C R ε α T) (h : P.Evicting p k) :
    P.Evicting { p with threads := p.threads ++ [th'] } k := by
  obtain ⟨th, hth, hevicts⟩ := h
  exact ⟨th, List.mem_append_left _ hth, hevicts⟩

/-- Who does not evict the key leaves it to the others. -/
theorem evicting_set {k : K} {i : ℕ} {th th' : Thread C R ε α T} {c : C}
    (hth : p.threads[i]? = some th) (hcall : th.nextCall = some c) (hc : ¬ P.evicts c k) (s : σ)
    (h : P.Evicting p k) : P.Evicting (⟨s, p.threads.set i th'⟩ : Pool C R ε α T σ) k := by
  obtain ⟨x, hx, d, hd, hevicts⟩ := h
  obtain ⟨j, hj⟩ := List.getElem?_of_mem hx
  have hji : i ≠ j := by
    rintro rfl
    rw [hth] at hj
    cases hj
    rw [hcall] at hd
    cases hd
    exact hc hevicts
  refine ⟨x, ?_, d, hd, hevicts⟩
  apply List.mem_of_getElem? (i := j)
  rw [List.getElem?_set_ne hji]
  exact hj

theorem fresh_step (hS : P.Sound S) (h : P.Fresh p) {m : PoolMove T E} (hfills : P.FillsInTime p m)
    (hevicts : P.EvictsNext S p m) : P.Fresh (S.step p m) := by
  have hcase := S.step_cases p m
  generalize hq : S.step p m = q at hcase
  intro k v hcached
  cases hcase with
  | spawn tag =>
    rcases h k v hcached with hholds | hevicting
    · exact .inl hholds
    · exact .inr (evicting_append _ hevicting)
  | environment e =>
    obtain ⟨hbefore, hkept⟩ := hS.environment e p.state k v hcached
    rcases h k v hbefore with hholds | hevicting
    · exact .inl (hkept hholds)
    · exact .inr hevicting
  | idle i => exact h k v hcached
  | @call i th c next hth hrest =>
    have hcall := Thread.nextCall_of_rest hrest
    rcases hS.call c p.state k v hcached with hfill | ⟨hbefore, hnot⟩
    · rcases hfills th hth c hcall k v hfill with hholds | hevicting
      · exact .inl (hS.fill c p.state k v hfill hholds)
      · exact .inr (evicting_set hth hcall (hS.fill_not_evicts c k v hfill k) _ hevicting)
    · rcases h k v hbefore with hholds | hevicting
      · have hnext := hevicts th hth k v hbefore hholds
        rwa [hq] at hnext
      · exact .inr (evicting_set hth hcall hnot _ hevicting)

/-- Once no call is left, what is cached holds. -/
theorem Fresh.holds (h : P.Fresh p) (hfinished : ∀ th ∈ p.threads, th.nextCall = none) {k : K} {v : V}
    (hcached : P.cached p.state k = some v) : P.holds p.state k v := by
  rcases h k v hcached with hholds | ⟨th, hth, c, hcall, -⟩
  · exact hholds
  · rw [hfinished th hth] at hcall
    cases hcall

end ReadThrough
end FastapiTemplate
