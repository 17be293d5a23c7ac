import CppTango.Data

namespace CppTango.Device

/-- A name as it is looked up, in lower case. -/
def lowerName (name : String) : List Char := name.toList.map Char.toLower

inductive AttrWriteType
  | read | readWithWrite | write | readWrite
deriving DecidableEq, Repr

inductive AttrDataFormat
  | scalar | spectrum | image
deriving DecidableEq, Repr

def thrown (reason desc origin : String) : DevErrorList := [⟨reason,.err,desc,origin⟩]

/-- Index of an attribute in the device's vector. -/
def getAttrIndByName (names : List String) (attrName : String) : Except DevErrorList Nat :=
  match names.findIdx? (fun n => lowerName n = lowerName attrName) with
  | some ind => .ok ind
  | none => .error (thrown "API_AttrNotFound" (attrName ++ " attribute not found")
      "MultiAttribute::get_attr_ind_by_name")

theorem attr_ind_found {names : List String} {attrName : String} {ind : Nat}
    (h : getAttrIndByName names attrName = .ok ind) :
    ∃ n, names[ind]? = some n ∧ lowerName n = lowerName attrName := by
  unfold getAttrIndByName at h
  cases hf : names.findIdx? (fun n => lowerName n = lowerName attrName) with
  | none =>
    rw [hf] at h
    cases h
  | some i =>
    rw [hf] at h
    cases h
    obtain ⟨hi,hn,-⟩ := List.findIdx?_eq_some_iff_getElem.mp hf
    exact ⟨_,List.getElem?_eq_getElem hi,by simpa using hn⟩

end CppTango.Device
