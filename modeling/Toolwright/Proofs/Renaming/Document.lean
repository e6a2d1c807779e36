import Toolwright.Document.Result
import Toolwright.Proofs.Renaming.Value

/-!
# Renaming and texts

No text shows a cell, a function or a mark: what is printed of a value, and the document that it
has, are those of the renamed value.
-/

namespace Toolwright

set_option autoImplicit false

variable (ρ : Renaming)

namespace Binary64

@[simp] theorem text_rename (x : Binary64) : (x.rename ρ).text = x.text := by
  cases x <;> rfl

end Binary64

namespace Value

theorem isEmpty_renameItems (xs : List Value) : (renameItems ρ xs).isEmpty = xs.isEmpty := by
  cases xs <;> rfl

/-! ## Printed values -/

theorem printed_opaque_rename (o : Opaque) : (o.rename ρ).printed = o.printed := by
  cases o <;> rfl

mutual

theorem printed_rename (v : Value) : (v.rename ρ).printed = v.printed := by
  cases v with
  | float x => simp [Value.rename, printed]
  | list xs | tuple xs => simp only [Value.rename, printed, printedItems_rename xs]
  | set xs | frozenset xs =>
    simp only [Value.rename, printed, printedItems_rename xs, isEmpty_renameItems]
  | dict rows | mapping rows => simp only [Value.rename, printed, printedRows_rename rows]
  | opaqueRef o => simp only [Value.rename, printed, printed_opaque_rename]
  | record shape fields => simp only [Value.rename, printed, printedItems_rename fields]
  | _ => rfl

theorem printedItems_rename (xs : List Value) :
    printedItems (renameItems ρ xs) = printedItems xs := by
  cases xs with
  | nil => rfl
  | cons x xs => simp only [renameItems, printedItems, printed_rename x, printedItems_rename xs]

theorem printedRows_rename (rows : List (Value × Value)) :
    printedRows (renameRows ρ rows) = printedRows rows := by
  cases rows with
  | nil => rfl
  | cons row rows =>
    obtain ⟨k, v⟩ := row
    simp only [renameRows, printedRows, printed_rename k, printed_rename v,
      printedRows_rename rows]

end

theorem text_rename (v : Value) : (v.rename ρ).text = v.text := by
  cases v with
  | str s => rfl
  | opaqueRef o =>
    cases o with
    | token serial text => rfl
    | mute serial reason => rfl
    | _ => exact printed_rename ρ (.opaqueRef _)
  | _ => exact printed_rename ρ _

/-! ## Documents -/

theorem isMemberKey_rename (v : Value) : (v.rename ρ).isMemberKey = v.isMemberKey := by
  cases v <;> rfl

theorem memberKey_rename (v : Value) :
    memberKey (v.rename ρ) = (memberKey v).map (Value.rename ρ) := by
  unfold memberKey
  rw [isMemberKey_rename, text_rename]
  split
  · rfl
  · cases v.text <;> rfl

mutual

theorem settleKeys_rename (v : Value) :
    (v.rename ρ).settleKeys = v.settleKeys.map (Value.rename ρ) := by
  cases v with
  | list xs | tuple xs =>
    simp only [Value.rename, settleKeys, settleItems_rename xs]
    cases settleItems xs <;> rfl
  | dict rows | mapping rows =>
    simp only [Value.rename, settleKeys, settleRows_rename rows]
    cases settleRows rows with
    | error f => rfl
    | ok rows =>
      have h := collectRows_rename ρ rows
      simp only [← renameRows_eq] at h
      show Except.ok (Value.dict (collectRows (renameRows ρ rows))) = Except.ok _
      rw [h]
      rfl
  | _ => rfl

theorem settleItems_rename (xs : List Value) :
    settleItems (renameItems ρ xs) = (settleItems xs).map (renameItems ρ) := by
  cases xs with
  | nil => rfl
  | cons x xs =>
    simp only [renameItems, settleItems, settleKeys_rename x, settleItems_rename xs]
    cases x.settleKeys with
    | error f => rfl
    | ok x => cases settleItems xs <;> rfl

theorem settleRows_rename (rows : List (Value × Value)) :
    settleRows (renameRows ρ rows) = (settleRows rows).map (renameRows ρ) := by
  cases rows with
  | nil => rfl
  | cons row rows =>
    obtain ⟨k, v⟩ := row
    simp only [renameRows, settleRows, memberKey_rename, settleKeys_rename v,
      settleRows_rename rows]
    cases memberKey k with
    | error f => rfl
    | ok k =>
      cases v.settleKeys with
      | error f => rfl
      | ok v => cases settleRows rows <;> rfl

end

end Value

namespace Document

mutual

/-- A document with its marks renamed. -/
def rename : Document → Document
  | .float x => .float (x.rename ρ)
  | .array items => .array (renameItems items)
  | .object members => .object (renameMembers members)
  | .null => .null
  | .bool b => .bool b
  | .int n => .int n
  | .str s => .str s

def renameItems : List Document → List Document
  | [] => []
  | item :: items => rename item :: renameItems items

def renameMembers : List (String × Document) → List (String × Document)
  | [] => []
  | (name, d) :: members => (name, rename d) :: renameMembers members

end

theorem isEmpty_renameItems (items : List Document) :
    (renameItems ρ items).isEmpty = items.isEmpty := by
  cases items <;> rfl

theorem isEmpty_renameMembers (members : List (String × Document)) :
    (renameMembers ρ members).isEmpty = members.isEmpty := by
  cases members <;> rfl

theorem floatText_rename (x : Binary64) : floatText (x.rename ρ) = floatText x := by
  cases x <;> rfl

mutual

theorem chars_rename (layout : Layout) (depth : Nat) (d : Document) :
    (d.rename ρ).chars layout depth = d.chars layout depth := by
  cases d with
  | float x => simp only [rename, chars, floatText_rename]
  | array items =>
    simp only [rename, chars, isEmpty_renameItems, itemChars_rename layout (depth + 1) items]
  | object members =>
    simp only [rename, chars, isEmpty_renameMembers,
      memberChars_rename layout (depth + 1) members]
  | _ => rfl

theorem itemChars_rename (layout : Layout) (depth : Nat) (items : List Document) :
    itemChars layout depth (renameItems ρ items) = itemChars layout depth items := by
  cases items with
  | nil => rfl
  | cons item items =>
    simp only [renameItems, itemChars, isEmpty_renameItems, chars_rename layout depth item,
      itemChars_rename layout depth items]

theorem memberChars_rename (layout : Layout) (depth : Nat) (members : List (String × Document)) :
    memberChars layout depth (renameMembers ρ members) = memberChars layout depth members := by
  cases members with
  | nil => rfl
  | cons member members =>
    obtain ⟨name, d⟩ := member
    simp only [renameMembers, memberChars, isEmpty_renameMembers, chars_rename layout depth d,
      memberChars_rename layout depth members]

end

theorem memberName_rename (v : Value) : memberName (v.rename ρ) = memberName v := by
  cases v with
  | float x => simp only [Value.rename, memberName, floatText_rename]
  | _ => rfl

variable {leaf : Value → Except Fault Document}

mutual

theorem ofValue_rename (hleaf : ∀ v, leaf (v.rename ρ) = (leaf v).map (rename ρ))
    (v : Value) :
    ofValue leaf (v.rename ρ) = (ofValue leaf v).map (rename ρ) := by
  cases v with
  | int n =>
    simp only [Value.rename, ofValue]
    cases intText n <;> rfl
  | list xs | tuple xs =>
    simp only [Value.rename, ofValue, ofItems_rename hleaf xs]
    cases ofItems leaf xs <;> rfl
  | dict rows =>
    simp only [Value.rename, ofValue, ofRows_rename hleaf rows]
    cases ofRows leaf rows <;> rfl
  | null | bool | float | str => rfl
  | bytes bs => exact hleaf (.bytes bs)
  | mapping rows => exact hleaf (.mapping rows)
  | set xs => exact hleaf (.set xs)
  | frozenset xs => exact hleaf (.frozenset xs)
  | opaqueRef o => exact hleaf (.opaqueRef o)
  | record shape fields => exact hleaf (.record shape fields)

theorem ofItems_rename (hleaf : ∀ v, leaf (v.rename ρ) = (leaf v).map (rename ρ))
    (xs : List Value) :
    ofItems leaf (Value.renameItems ρ xs) = (ofItems leaf xs).map (renameItems ρ) := by
  cases xs with
  | nil => rfl
  | cons x xs =>
    simp only [Value.renameItems, ofItems, ofValue_rename hleaf x, ofItems_rename hleaf xs]
    cases ofValue leaf x with
    | error f => rfl
    | ok d => cases ofItems leaf xs <;> rfl

theorem ofRows_rename (hleaf : ∀ v, leaf (v.rename ρ) = (leaf v).map (rename ρ))
    (rows : List (Value × Value)) :
    ofRows leaf (Value.renameRows ρ rows) = (ofRows leaf rows).map (renameMembers ρ) := by
  cases rows with
  | nil => rfl
  | cons row rows =>
    obtain ⟨k, v⟩ := row
    simp only [Value.renameRows, ofRows, memberName_rename, ofValue_rename hleaf v,
      ofRows_rename hleaf rows]
    cases memberName k with
    | error f => rfl
    | ok name =>
      cases ofValue leaf v with
      | error f => rfl
      | ok d => cases ofRows leaf rows <;> rfl

end

end Document

/-- The document of a container has the text that the renamed container's has. -/
theorem Value.documentText_rename (v indent : Value) :
    (v.rename ρ).documentText indent = v.documentText indent := by
  have hleaf (v : Value) : (Document.str <$> (v.rename ρ).text : Except Fault Document) =
      (Document.str <$> v.text : Except Fault Document).map (Document.rename ρ) := by
    rw [Value.text_rename]
    cases v.text <;> rfl
  unfold Value.documentText
  rw [Value.settleKeys_rename]
  cases v.settleKeys with
  | error f => rfl
  | ok settled =>
    simp only [Except.map, Bind.bind, Except.bind]
    cases Layout.ofIndent indent with
    | error f => rfl
    | ok layout =>
      have h := @Document.ofValue_rename ρ (fun v => Document.str <$> v.text) hleaf settled
      simp only [h]
      cases Document.ofValue (fun leaf => Document.str <$> leaf.text) settled with
      | error f => rfl
      | ok d =>
        simp only [Except.map, Document.text, Document.chars_rename]

end Toolwright
