import FastapiTemplate.CompactJson
import FastapiTemplate.CursorPagination
import FastapiTemplate.JsonColumns

/-!
# Notifications

`NotificationSchema` with its JSON text, and the channels of Redis on which it is published. The
metadata is given by what pydantic writes of it.
-/

namespace FastapiTemplate

namespace PyValue

/-! ## Compact texts have no control characters -/

mutual

theorem compactText_subset : ∀ v : PyValue, v.compactText ⊆ v.text false
  | .list (v :: vs) => by
    rw [compactText, text]
    exact List.append_subset.mpr ⟨List.cons_subset_cons _
      (List.subset_append_of_subset_left _ (compactText_subset v)),
      List.subset_append_of_subset_right _ (compactElements_subset vs)⟩
  | .dict ((k, v) :: items) => by
    intro c hc
    simp only [compactText, List.cons_append, List.mem_cons, List.mem_append] at hc
    simp only [text, List.cons_append, List.mem_cons, List.mem_append]
    rcases hc with hc | (hc | hc | hc) | hc
    · exact .inl hc
    · exact .inr (.inl (.inl hc))
    · exact .inr (.inl (.inr (.inl hc)))
    · exact .inr (.inl (.inr (.inr (.inr (compactText_subset v hc)))))
    · exact .inr (.inr (compactItems_subset items hc))
  | .null | .bool _ | .int _ | .float _ | .str _ | .list [] | .dict [] | .set _ | .other _ =>
    List.Subset.refl _

theorem compactElements_subset : ∀ vs : List PyValue, compactElements vs ⊆ elementsText false vs
  | [] => List.Subset.refl _
  | v :: vs => by
    intro c hc
    simp only [compactElements, List.cons_append, List.mem_cons, List.mem_append] at hc
    simp only [elementsText, List.cons_append, List.mem_cons, List.mem_append]
    rcases hc with hc | hc | hc
    · exact .inl hc
    · exact .inr (.inr (.inl (compactText_subset v hc)))
    · exact .inr (.inr (.inr (compactElements_subset vs hc)))

theorem compactItems_subset :
    ∀ items : List (String × PyValue), compactItems items ⊆ itemsText false items
  | [] => List.Subset.refl _
  | (k, v) :: items => by
    intro c hc
    simp only [compactItems, List.cons_append, List.mem_cons, List.mem_append] at hc
    simp only [itemsText, List.cons_append, List.mem_cons, List.mem_append]
    rcases hc with hc | (hc | hc | hc) | hc
    · exact .inl hc
    · exact .inr (.inr (.inl (.inl hc)))
    · exact .inr (.inr (.inl (.inr (.inl hc))))
    · exact .inr (.inr (.inl (.inr (.inr (.inr (compactText_subset v hc))))))
    · exact .inr (.inr (.inr (compactItems_subset items hc)))

end

theorem compactText_blank_le (v : PyValue) : ∀ c ∈ v.compactText, 32 ≤ c.toNat :=
  fun c hc => Jsonb.text_blank_le false v c (compactText_subset v hc)

end PyValue

namespace Notification

/-! ## The schema -/

inductive NotificationType
  | info
  | warning
  | error
  | success
  deriving DecidableEq, Repr

def NotificationType.value : NotificationType → String
  | .info => "INFO"
  | .warning => "WARNING"
  | .error => "ERROR"
  | .success => "SUCCESS"

structure NotificationSchema where
  type : NotificationType := .info
  message : String
  subject : Option String := none
  metadata : List (String × PyValue) := []
  templatePath : String := "email/notification.html"
  actionUrl : Option String := none
  metadata_isJson : (PyValue.dict metadata).IsJson

namespace NotificationSchema

def optionalStr : Option String → PyValue
  | none => .null
  | some s => .str s

def modelDump (n : NotificationSchema) : PyValue :=
  .dict [("type", .str n.type.value), ("message", .str n.message),
    ("subject", optionalStr n.subject), ("metadata", .dict n.metadata),
    ("template_path", .str n.templatePath), ("action_url", optionalStr n.actionUrl)]

def modelDumpJson (n : NotificationSchema) : String := String.ofList n.modelDump.compactText

theorem isJson_optionalStr (s : Option String) : (optionalStr s).IsJson := by
  cases s <;> exact ⟨rfl, rfl⟩

theorem isJson_modelDump (n : NotificationSchema) : n.modelDump.IsJson := by
  have hkeys : ["type", "message", "subject", "metadata", "template_path", "action_url"].Nodup := by
    decide
  refine Jsonb.isJson_dict_iff.mpr ⟨hkeys, ?_⟩
  intro kv hkv
  simp only [List.mem_cons, List.not_mem_nil, or_false] at hkv
  rcases hkv with rfl | rfl | rfl | rfl | rfl | rfl
  · exact PyValue.isJson_str _
  · exact PyValue.isJson_str _
  · exact isJson_optionalStr _
  · exact n.metadata_isJson
  · exact PyValue.isJson_str _
  · exact isJson_optionalStr _

theorem loads_modelDumpJson (n : NotificationSchema) :
    PyValue.loads n.modelDumpJson = some n.modelDump :=
  PyValue.loads_compactText n.isJson_modelDump

theorem optionalStr_injective : Function.Injective optionalStr := by
  intro s t h
  cases s <;> cases t <;> simp_all [optionalStr]

/-- The JSON text says everything about the notification. -/
theorem modelDumpJson_injective : Function.Injective modelDumpJson := by
  intro n m h
  have hdump : n.modelDump = m.modelDump := by
    have hloads := loads_modelDumpJson n
    rw [h, loads_modelDumpJson] at hloads
    exact (Option.some.inj hloads).symm
  have htype : Function.Injective NotificationType.value := by
    intro a b
    cases a <;> cases b <;> decide
  cases n with
  | mk type message subject metadata templatePath actionUrl hn =>
    cases m with
    | mk type' message' subject' metadata' templatePath' actionUrl' hm =>
      simp only [modelDump, PyValue.dict.injEq, List.cons.injEq, Prod.mk.injEq, true_and, and_true,
        PyValue.str.injEq] at hdump
      obtain ⟨h1, h2, h3, h4, h5, h6⟩ := hdump
      obtain rfl := htype h1
      obtain rfl := optionalStr_injective h3
      obtain rfl := optionalStr_injective h6
      subst h2 h4 h5
      rfl

end NotificationSchema

/-! ## The channels of Redis -/

structure Uuid where
  value : ℕ
  lt : value < Pagination.maxUuid
  deriving DecidableEq

def userChannel (userId : Uuid) : String :=
  "notifications:user:" ++ Pagination.uuidText userId.value

def broadcastChannel : String := "notifications:broadcast"

theorem toList_userChannel (u : Uuid) : (userChannel u).toList =
    "notifications:user:".toList ++ (Pagination.uuidText u.value).toList := String.toList_append

theorem userChannel_injective : Function.Injective userChannel := by
  intro u v h
  have hlist := congrArg String.toList h
  rw [toList_userChannel, toList_userChannel] at hlist
  have htext := String.toList_injective (List.append_cancel_left hlist)
  have hread := Pagination.readUuid_reads u.value u.lt
  rw [htext, Pagination.readUuid_reads v.value v.lt] at hread
  have hvalue := Option.some.inj hread
  cases u
  cases v
  congr
  exact hvalue.symm

theorem userChannel_ne_broadcast (u : Uuid) : userChannel u ≠ broadcastChannel := by
  intro h
  have hchar := congrArg (fun s => s.toList[14]?) h
  rw [toList_userChannel, List.getElem?_append_left (by decide)] at hchar
  exact absurd hchar (by decide)

end Notification

end FastapiTemplate
