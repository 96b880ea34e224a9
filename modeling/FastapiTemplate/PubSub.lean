import Mathlib.Logic.Function.Basic
import Mathlib.Data.List.Basic

/-!
# Publish and subscribe

A broker with channels and subscribers. A message goes to those who subscribe to its channel at that
moment, and waits there until it is taken. The broker also confirms each subscription, in the same
queue.
-/

namespace FastapiTemplate

inductive Reply (χ μ : Type)
  | confirm (channel : χ)
  | message (channel : χ) (data : μ)
  deriving DecidableEq

structure Broker (σ χ μ : Type) where
  channels : σ → χ → Bool
  replies : σ → List (Reply χ μ)

namespace Broker

variable {σ χ μ : Type} [DecidableEq σ] [DecidableEq χ]

def empty : Broker σ χ μ := ⟨fun _ _ => false, fun _ => []⟩

def subscribe (b : Broker σ χ μ) (s : σ) (channels : List χ) : Broker σ χ μ where
  channels := Function.update b.channels s (fun c => b.channels s c || decide (c ∈ channels))
  replies := Function.update b.replies s (b.replies s ++ channels.map .confirm)

def unsubscribe (b : Broker σ χ μ) (s : σ) (channels : List χ) : Broker σ χ μ where
  channels := Function.update b.channels s (fun c => b.channels s c && decide (c ∉ channels))
  replies := Function.update b.replies s (b.replies s ++ channels.map .confirm)

def publish (b : Broker σ χ μ) (channel : χ) (data : μ) : Broker σ χ μ where
  channels := b.channels
  replies s := if b.channels s channel then b.replies s ++ [.message channel data] else b.replies s

def take (b : Broker σ χ μ) (s : σ) : Option (Reply χ μ) × Broker σ χ μ :=
  ((b.replies s).head?, { b with replies := Function.update b.replies s (b.replies s).tail })

/-! ## What waits for a subscriber -/

def messageOf : Reply χ μ → Option μ
  | .confirm _ => none
  | .message _ data => some data

/-- The messages that have been published and not taken. -/
def waiting (b : Broker σ χ μ) (s : σ) : List μ := (b.replies s).filterMap messageOf

variable (b : Broker σ χ μ) (s : σ) (channels : List χ) (channel : χ) (data : μ)

omit [DecidableEq σ] [DecidableEq χ] in
theorem filterMap_confirm : (channels.map Reply.confirm).filterMap messageOf = ([] : List μ) := by
  rw [List.filterMap_map]
  exact List.filterMap_eq_nil_iff.mpr (fun _ _ => rfl)

@[simp] theorem waiting_subscribe : (b.subscribe s channels).waiting s = b.waiting s := by
  have hreplies : (b.subscribe s channels).replies s = b.replies s ++ channels.map .confirm :=
    Function.update_self ..
  rw [waiting, hreplies, List.filterMap_append, filterMap_confirm, List.append_nil, waiting]

@[simp] theorem channels_subscribe (c : χ) :
    (b.subscribe s channels).channels s c = (b.channels s c || decide (c ∈ channels)) := by
  have hchannels : (b.subscribe s channels).channels s =
      fun c => b.channels s c || decide (c ∈ channels) := Function.update_self ..
  rw [hchannels]

omit [DecidableEq σ] [DecidableEq χ] in
theorem waiting_publish : (b.publish channel data).waiting s =
    b.waiting s ++ if b.channels s channel then [data] else [] := by
  unfold waiting publish
  dsimp only
  split_ifs
  · rw [List.filterMap_append]
    rfl
  · rw [List.append_nil]

omit [DecidableEq χ] in
/-- What waits is the message that is taken, if it is one, and what waits afterwards. -/
theorem waiting_take : b.waiting s =
    ((b.take s).1.bind messageOf).toList ++ (b.take s).2.waiting s := by
  unfold waiting take
  dsimp only
  rw [Function.update_self]
  cases hreplies : b.replies s with
  | nil => rfl
  | cons reply rest => cases reply <;> rfl

/-! ## Other subscribers -/

section other
variable {s} {t : σ} (hts : t ≠ s)
include hts

theorem subscribe_of_ne : (b.subscribe s channels).channels t = b.channels t ∧
    (b.subscribe s channels).replies t = b.replies t :=
  ⟨Function.update_of_ne hts .., Function.update_of_ne hts ..⟩

theorem unsubscribe_of_ne : (b.unsubscribe s channels).channels t = b.channels t ∧
    (b.unsubscribe s channels).replies t = b.replies t :=
  ⟨Function.update_of_ne hts .., Function.update_of_ne hts ..⟩

omit [DecidableEq χ] in
theorem take_of_ne : (b.take s).2.channels t = b.channels t ∧
    (b.take s).2.replies t = b.replies t := ⟨rfl, Function.update_of_ne hts ..⟩

end other

end Broker

end FastapiTemplate
