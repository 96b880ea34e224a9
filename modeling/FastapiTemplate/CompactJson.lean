import FastapiTemplate.JsonRoundTrip

/-!
# Compact JSON texts

The text of a value without spaces and with only the escapes that JSON asks for, as pydantic writes
it. `json.loads` reads it as it reads the text of `json.dumps`.
-/

namespace FastapiTemplate.PyValue

mutual

def compactText : PyValue → List Char
  | .list (v :: vs) => '[' :: compactText v ++ compactElements vs
  | .dict ((k, v) :: items) =>
    '{' :: stringText false k ++ ':' :: compactText v ++ compactItems items
  | v => text false v

def compactElements : List PyValue → List Char
  | [] => [']']
  | v :: vs => ',' :: compactText v ++ compactElements vs

def compactItems : List (String × PyValue) → List Char
  | [] => ['}']
  | (k, v) :: items => ',' :: stringText false k ++ ':' :: compactText v ++ compactItems items

end

mutual

theorem gappedText_nil : ∀ v : PyValue, v.gappedText false [] = v.compactText
  | .list (v :: vs) => by
    rw [gappedText, compactText, gappedText_nil v, gappedElements_nil vs]
  | .dict ((k, v) :: items) => by
    rw [gappedText, compactText, gappedText_nil v, gappedItems_nil items, List.nil_append]
  | .null | .bool _ | .int _ | .float _ | .str _ | .list [] | .dict [] | .set _ | .other _ => rfl

theorem gappedElements_nil : ∀ vs : List PyValue,
    gappedElements false [] vs = compactElements vs
  | [] => rfl
  | v :: vs => by
    rw [gappedElements, compactElements, gappedText_nil v, gappedElements_nil vs, List.nil_append]

theorem gappedItems_nil : ∀ items : List (String × PyValue),
    gappedItems false [] items = compactItems items
  | [] => rfl
  | (k, v) :: items => by
    rw [gappedItems, compactItems, gappedText_nil v, gappedItems_nil items, List.nil_append,
      List.nil_append]

end

theorem beginsValue_compactText (v : PyValue) (hv : v.jsonable = true) :
    BeginsValue v.compactText := by
  rw [← gappedText_nil]
  exact beginsValue_text [] v hv

theorem loads_compactText {v : PyValue} (hv : v.IsJson) :
    loads (String.ofList v.compactText) = some v := by
  rw [← gappedText_nil]
  exact loads_gappedText (List.forall_mem_nil _) hv

end FastapiTemplate.PyValue
