import Mathlib
import YasbLimitora.Config.Document
import YasbLimitora.Lib.JsonText
import YasbLimitora.SetupAssist.Request

/-!
# A selection and a configuration document

`setup_assist.py`: the document that a selection makes of the one that is there
(`mergeConfigSelection`), and what is asked of the file after it was written
(`verifyConfigReread`). A selection gives values to fields of the document, and leaves all
else in it as it is.

The merge goes through the selected fields in their order. A value that is null takes its field out,
and a provider that is left without fields goes with it. The check of the file is made on the
document that was read again, with the selected fields out of both: it compares values, and takes an
integer and a floating-point number for the same where they are equal, as the comparison of the
source does.
-/

namespace YasbLimitora

namespace ConfigApply

open Json (Fields)

/-- How floating-point numbers are written: nothing, if that is not allowed. -/
abbrev FloatTexts := List Char → Option String

/-- How a document is read that is to be written again. -/
def mergeReader (floatTexts : FloatTexts) : Json.Reader where
  float := floatTexts
  constant _ := none
  repeats := false

/-- `_ordered_config_document`. -/
def orderedConfigDocument (floatTexts : FloatTexts) (raw : Bytes) : Option Fields := do
  let t ← Encoding.utf8 false raw
  match Json.parse (mergeReader floatTexts) t with
  | some (.obj document) => some document
  | _ => none

def DEADLINE : Text := Text.ofString "deadline_seconds"

/-- What is selected for one provider. -/
def setProvider (document : Fields) (key : Text) (value : Json Text) : Option Fields :=
  let current : Option Fields := match Json.get? key document with
    | none | some .null => some []
    | some (.obj current) => some current
    | some _ => none
  match current, value with
  | some current, .obj selected =>
    some (Json.set key (.obj (selected.foldl (fun fields p => Json.set p.1 p.2 fields) current)) document)
  | _, _ => none

/-- A document with all that is selected. -/
def selectAll (document : Fields) : Fields → Option Fields
  | [] => some document
  | (key, value) :: selection =>
    if key = DEADLINE then selectAll (Json.set key value document) selection
    else (setProvider document key value).bind fun document => selectAll document selection

/-- `_merge_config_selection`. -/
def mergeConfigSelection (floatTexts : FloatTexts) (raw : Bytes) (selection : Fields) :
    Option Bytes := do
  let document ← orderedConfigDocument floatTexts raw
  let document ← selectAll document selection
  return Encoding.ascii ((Json.Style.ascii [.ch ' ']).write (.obj document))

/-! ### The check of what was written -/

/-- What is selected under one key stands in a document. -/
def isSelected (document : Fields) (key : Text) (selected : Json Text) : Bool :=
  if key = DEADLINE then (Json.get? key document).any fun x => Json.same x selected
  else match Json.get? key document, selected with
    | some (.obj provider), .obj fields =>
      fields.all fun p => (Json.get? p.1 provider).any fun x => Json.same x p.2
    | _, _ => false

/-- What of a document is not selected, under one key. -/
def withoutSelected (document : Fields) (key : Text) (selected : Json Text) : Fields :=
  if key = DEADLINE then Json.erase key document
  else match Json.get? key document, selected with
    | some (.obj provider), .obj fields =>
      let provider := fields.foldl (fun provider p => Json.erase p.1 provider) provider
      if provider = [] then Json.erase key document else Json.set key (.obj provider) document
    | _, _ => document

def unowned (document : Fields) (selection : Fields) : Fields :=
  selection.foldl (fun document p => withoutSelected document p.1 p.2) document

/-- `_verify_config_reread`. -/
def verifyConfigReread (floatTexts : FloatTexts) (original reread merged : Bytes)
    (selection : Fields) : Bool :=
  match orderedConfigDocument floatTexts original, orderedConfigDocument floatTexts reread with
  | some originalDocument, some rereadDocument =>
    (selection.all fun p => isSelected rereadDocument p.1 p.2) &&
      Json.same (.obj (unowned rereadDocument selection)) (.obj (unowned originalDocument selection)) &&
      reread == merged
  | _, _ => false

/-- **What passes the check** is the merged document. -/
theorem eq_of_verifyConfigReread {floatTexts : FloatTexts} {original reread merged : Bytes}
    {selection : Fields} (h : verifyConfigReread floatTexts original reread merged selection = true) :
    reread = merged := by
  unfold verifyConfigReread at h
  split at h
  · rw [Bool.and_eq_true, beq_iff_eq] at h
    exact h.2
  · cases h

end ConfigApply

end YasbLimitora
