import Mathlib.Data.List.Basic

/-!
# Streams that are read by a consumer group

Entries are named by their position in the stream. A group hands every entry to one of its
consumers, for which it is pending until it is acknowledged; reading on never hands out a
pending entry again. Acknowledged entries are remembered to speak about them.
-/

namespace FastapiTemplate

structure ConsumerGroup (C : Type) where
  /-- the first position that was not handed out yet -/
  delivered : ℕ
  pending : List (ℕ × C)
  acked : List ℕ
  deriving DecidableEq, Repr

structure EntryStream (M C : Type) where
  entries : List M
  /-- the first position that was not trimmed -/
  kept : ℕ
  group : Option (ConsumerGroup C)
  deriving DecidableEq, Repr

namespace EntryStream

variable {M C : Type}

def empty : EntryStream M C := ⟨[], 0, none⟩

def numbered (st : EntryStream M C) : List (ℕ × M) := st.entries.zipIdx.map (fun x => (x.2, x.1))

def pending (st : EntryStream M C) : List (ℕ × C) := (st.group.map (·.pending)).getD []

def acked (st : EntryStream M C) : List ℕ := (st.group.map (·.acked)).getD []

/-- `XADD` with an approximate `MAXLEN`, which keeps at least the newest `maxLen` entries. -/
def add (st : EntryStream M C) (m : M) (maxLen trimmed : ℕ) : EntryStream M C where
  entries := st.entries ++ [m]
  kept := max st.kept (min trimmed (st.entries.length + 1 - maxLen))
  group := st.group

/-- `XGROUP CREATE` at the end of the stream, which fails for a group that exists. -/
def createGroup (st : EntryStream M C) : EntryStream M C :=
  match st.group with
  | none => { st with group := some ⟨st.entries.length, [], []⟩ }
  | some _ => st

def unread (st : EntryStream M C) (g : ConsumerGroup C) (count : ℕ) : List (ℕ × M) :=
  (st.numbered.drop (max g.delivered st.kept)).take count

def read (st : EntryStream M C) (consumer : C) (count : ℕ) : List (ℕ × M) × EntryStream M C :=
  match st.group with
  | none => ([], st)
  | some g =>
    let messages := st.unread g count
    let position := (messages.getLast?.map (·.1 + 1)).getD g.delivered
    let pending := g.pending ++ messages.map (fun x => (x.1, consumer))
    (messages, { st with group := some { g with delivered := position, pending := pending } })

/-- `XACK`, which has no effect on an entry that is not pending. -/
def ack (st : EntryStream M C) (i : ℕ) : EntryStream M C :=
  match st.group with
  | none => st
  | some g =>
    if g.pending.any (·.1 = i) then
      let pending := g.pending.filter (·.1 ≠ i)
      { st with group := some { g with pending := pending, acked := g.acked ++ [i] } }
    else st

section lemmas
variable (st : EntryStream M C)

theorem mem_numbered {x : ℕ × M} : x ∈ st.numbered ↔ st.entries[x.1]? = some x.2 := by
  obtain ⟨i, m⟩ := x
  unfold numbered
  rw [List.mem_map]
  constructor
  · rintro ⟨⟨m', j⟩, hmem, heq⟩
    cases heq
    exact List.mem_zipIdx_iff_getElem?.mp hmem
  · intro h
    exact ⟨(m, i), List.mem_zipIdx_iff_getElem?.mpr h, rfl⟩

@[simp] theorem add_entries (m : M) (maxLen trimmed : ℕ) :
    (st.add m maxLen trimmed).entries = st.entries ++ [m] := rfl

@[simp] theorem add_pending (m : M) (maxLen trimmed : ℕ) :
    (st.add m maxLen trimmed).pending = st.pending := rfl

@[simp] theorem add_acked (m : M) (maxLen trimmed : ℕ) :
    (st.add m maxLen trimmed).acked = st.acked := rfl

@[simp] theorem createGroup_entries : st.createGroup.entries = st.entries := by
  unfold createGroup
  cases st.group <;> rfl

@[simp] theorem createGroup_pending : st.createGroup.pending = st.pending := by
  unfold createGroup pending
  cases h : st.group <;> simp [h]

@[simp] theorem createGroup_acked : st.createGroup.acked = st.acked := by
  unfold createGroup acked
  cases h : st.group <;> simp [h]

@[simp] theorem read_entries (consumer : C) (count : ℕ) :
    (st.read consumer count).2.entries = st.entries := by
  unfold read
  cases st.group <;> rfl

@[simp] theorem read_acked (consumer : C) (count : ℕ) :
    (st.read consumer count).2.acked = st.acked := by
  unfold read acked
  cases h : st.group <;> simp [h]

theorem read_pending (consumer : C) (count : ℕ) : (st.read consumer count).2.pending =
    st.pending ++ (st.read consumer count).1.map (fun x => (x.1, consumer)) := by
  unfold read pending
  cases h : st.group <;> simp [h]

theorem getElem?_of_mem_read {consumer : C} {count : ℕ} {x : ℕ × M}
    (h : x ∈ (st.read consumer count).1) : st.entries[x.1]? = some x.2 := by
  unfold read at h
  cases hgroup : st.group with
  | none =>
    rw [hgroup] at h
    cases h
  | some g =>
    rw [hgroup] at h
    exact st.mem_numbered.mp (List.mem_of_mem_drop (List.mem_of_mem_take h))

/-- What is pending after a read was so before, or has been read for the consumer. -/
theorem mem_pending_read {consumer : C} {count : ℕ} {x : ℕ × C}
    (h : x ∈ (st.read consumer count).2.pending) : x ∈ st.pending ∨
    x.1 < st.entries.length ∧ x.2 = consumer ∧ ∃ m, (x.1, m) ∈ (st.read consumer count).1 := by
  rw [read_pending, List.mem_append] at h
  rcases h with hold | hnew
  · exact .inl hold
  · obtain ⟨y, hy, rfl⟩ := List.mem_map.mp hnew
    obtain ⟨hlt, -⟩ := List.getElem?_eq_some_iff.mp (st.getElem?_of_mem_read hy)
    exact .inr ⟨hlt, rfl, y.2, hy⟩

@[simp] theorem ack_entries (i : ℕ) : (st.ack i).entries = st.entries := by
  unfold ack
  cases st.group with
  | none => rfl
  | some g => by_cases h : g.pending.any (·.1 = i) <;> simp [h]

theorem mem_pending_ack {i : ℕ} {x : ℕ × C} (h : x ∈ (st.ack i).pending) :
    x ∈ st.pending ∧ x.1 ≠ i := by
  unfold ack pending at h
  unfold pending
  cases hgroup : st.group with
  | none => simp [hgroup] at h
  | some g =>
    by_cases hany : g.pending.any (·.1 = i)
    · simpa [hgroup, hany] using h
    · have hx : x ∈ g.pending := by simpa [hgroup, hany] using h
      refine ⟨hx, fun heq => hany (List.any_eq_true.mpr ⟨x, hx, by simpa using heq⟩)⟩

theorem mem_acked_ack {i j : ℕ} (h : j ∈ (st.ack i).acked) : j ∈ st.acked ∨ j = i := by
  unfold ack acked at h
  unfold acked
  cases hgroup : st.group with
  | none => simp [hgroup] at h
  | some g =>
    by_cases hany : g.pending.any (·.1 = i)
    · simpa [hgroup, hany] using h
    · exact .inl (by simpa [hgroup, hany] using h)

end lemmas

end EntryStream
end FastapiTemplate
