import CppTango.Device.Read
import CppTango.Lib.Memory

namespace CppTango.Device.Read

open CppTango.Lib

variable {α : Type} (dev : DeviceImpl α) (idl : Nat)

/-- What the polling buffers have for one name. -/
def cacheAnswer (name : String) : AttributeValue α :=
  match getAttrIndByName dev.names name with
  | .error e => errorFrom e name .blank
  | .ok _ =>
    if isPolled dev name = true then polledToReply dev idl name .blank
    else
      match notToPoll dev name with
      | some att => errorFrom (notPolled att) att.name .blank
      | none => polledToReply dev idl name .blank

section Names
variable {names : List String} {n m : String × Nat}

theorem place_inj (hn : n ∈ names.zipIdx) (hm : m ∈ names.zipIdx) (h : n.2 = m.2) : n = m := by
  have h1 := List.mem_zipIdx_iff_getElem?.mp hn
  have h2 := List.mem_zipIdx_iff_getElem?.mp hm
  rw [h,h2,Option.some.injEq] at h1
  exact Prod.ext h1.symm h

theorem zipIdx_nodup (names : List String) : names.zipIdx.Nodup := by
  have h := List.nodup_range' (s := 0) (n := names.length)
  rw [← List.zipIdx_map_snd] at h
  exact h.of_map _

theorem lookup_error {e : DevErrorList} {name : String} (h : getAttrIndByName dev.names name = .error e) :
    e ≠ [] := by
  unfold getAttrIndByName at h
  split at h
  · cases h
  · cases h
    exact List.cons_ne_nil _ _

end Names

section Loops
variable {dev idl} {names : List String} {n : String × Nat}

/-- A loop whose rounds each change the element of their own name. -/
theorem loop_eq_updSlots {body : (Nat → AttributeValue α) → String × Nat → Nat → AttributeValue α}
    {f : String × Nat → AttributeValue α → AttributeValue α} (hb : ∀ r n, body r n = put r n.2 (f n))
    (l : List (String × Nat)) (reply : Nat → AttributeValue α) :
    l.foldl body reply = updSlots Prod.snd f l reply := by
  have hbody : body = fun r n => Function.update r n.2 (f n (r n.2)) := by
    funext r n
    exact hb r n
  rw [hbody]
  rfl

theorem places_nodup {l : List (String × Nat)} (h : l.Sublist names.zipIdx) : (l.map Prod.snd).Nodup := by
  have hn := List.nodup_range' (s := 0) (n := names.length)
  rw [← List.zipIdx_map_snd] at hn
  exact hn.sublist (h.map _)

variable (dev) in
def unknownAt (n : String × Nat) (back : AttributeValue α) : AttributeValue α :=
  match getAttrIndByName dev.names n.1 with
  | .error e => errorFrom e n.1 back
  | .ok _ => back

theorem unknownStep_eq (r : Nat → AttributeValue α) (n : String × Nat) :
    unknownStep dev r n = put r n.2 (unknownAt dev n) := by
  unfold unknownStep put unknownAt
  cases getAttrIndByName dev.names n.1 with
  | error e => rfl
  | ok i => exact (Function.update_eq_self _ _).symm

variable (dev) in
def notPolledAt (n : String × Nat) (back : AttributeValue α) : AttributeValue α :=
  match notToPoll dev n.1 with
  | some att => errorFrom (notPolled att) att.name back
  | none => back

theorem notPolledStep_eq (r : Nat → AttributeValue α) (n : String × Nat) :
    notPolledStep dev r n = put r n.2 (notPolledAt dev n) := by
  unfold notPolledStep put notPolledAt
  cases notToPoll dev n.1 with
  | some att => rfl
  | none => exact (Function.update_eq_self _ _).symm

theorem cacheStep_eq (r : Nat → AttributeValue α) (n : String × Nat) :
    cacheStep dev idl r n =
      put r n.2 (fun back => if back.errList = [] then polledToReply dev idl n.1 back else back) := by
  unfold cacheStep put
  by_cases h : (r n.2).errList = []
  · simp only [if_pos h]
  · simp only [if_neg h]
    exact (Function.update_eq_self _ _).symm

variable (dev) in
/-- The element of a name before the buffers are looked at. -/
def beforeBuffers (n : String × Nat) : AttributeValue α :=
  if isNonPolled dev n = true then notPolledAt dev n (unknownAt dev n .blank)
  else unknownAt dev n .blank

variable (dev) in
theorem before_buffers (hn : n ∈ names.zipIdx) :
    ((names.zipIdx.filter (isNonPolled dev)).foldl (notPolledStep dev)
      (names.zipIdx.foldl (unknownStep dev) (fun _ => .blank))) n.2 =
      beforeBuffers dev n := by
  unfold beforeBuffers
  rw [loop_eq_updSlots notPolledStep_eq,loop_eq_updSlots unknownStep_eq]
  have h1 := updSlots_of_mem (f := unknownAt dev) (places_nodup (List.Sublist.refl _)) hn (fun _ => .blank)
  split
  next h =>
    rw [updSlots_of_mem (places_nodup List.filter_sublist) (List.mem_filter.mpr ⟨hn,h⟩),h1]
  next h =>
    rw [updSlots_of_not_mem,h1]
    intro hm
    obtain ⟨m,hm,he⟩ := List.mem_map.mp hm
    obtain ⟨hmz,hmp⟩ := List.mem_filter.mp hm
    rw [place_inj hmz hn he] at hmp
    exact h hmp

/-- When the method returns early no name has anything in the buffers. -/
theorem early_return (hn : n ∈ names.zipIdx)
    (h : (names.zipIdx.filter (isNonPolled dev)).countP (fun n => (notToPoll dev n.1).isSome) =
      names.length) : isNonPolled dev n = true ∧ (notToPoll dev n.1).isSome = true := by
  rw [List.countP_filter,← List.length_zipIdx (l := names) (i := 0),List.countP_eq_length] at h
  simpa [and_comm] using h n hn

theorem cacheAnswer_eq (n : String × Nat) : cacheAnswer dev idl n.1 =
    if (beforeBuffers dev n).errList = [] then polledToReply dev idl n.1 (beforeBuffers dev n)
    else beforeBuffers dev n := by
  unfold cacheAnswer beforeBuffers isNonPolled notPolledAt unknownAt
  cases hg : getAttrIndByName dev.names n.1 with
  | error e =>
    have he : (errorFrom e n.1 (AttributeValue.blank : AttributeValue α)).errList ≠ [] :=
      lookup_error dev hg
    simp only [Bool.false_eq_true,if_false,if_neg he]
  | ok i =>
    simp only []
    cases hp : isPolled dev n.1 with
    | true => rfl
    | false =>
      cases ha : notToPoll dev n.1 with
      | none => rfl
      | some att => rfl

/-- Every name is answered from the buffers as if it were alone. -/
theorem cache_answers (hn : n ∈ names.zipIdx) :
    readAttributesFromCache dev idl names (fun _ => .blank) n.2 = cacheAnswer dev idl n.1 := by
  have hb := before_buffers dev hn
  rw [cacheAnswer_eq]
  unfold readAttributesFromCache
  split
  next he =>
    obtain ⟨h1,h2⟩ := early_return hn he.2
    obtain ⟨att,ha⟩ := Option.isSome_iff_exists.mp h2
    have hne : (beforeBuffers dev n).errList ≠ [] := by
      simp [beforeBuffers,h1,notPolledAt,ha,errorFrom,notPolled,thrown]
    rw [if_neg hne,hb]
  next =>
    rw [loop_eq_updSlots cacheStep_eq,updSlots_of_mem (places_nodup (List.Sublist.refl _)) hn,hb]

theorem polledToReply_value {name : String}
    (h : (polledToReply dev idl name (.blank : AttributeValue α)).errList ≠ []) :
    (polledToReply dev idl name (.blank : AttributeValue α)).value = none := by
  unfold polledToReply at h ⊢
  split at h
  · rfl
  · split at h
    next h1 =>
      rw [if_pos h1]
      rfl
    next h1 =>
      rw [if_neg h1]
      split at h
      next h2 =>
        rw [if_pos h2]
        rfl
      next h2 =>
        rw [if_neg h2]
        split at h
        · rfl
        · split at h
          next h3 =>
            rw [if_pos h3]
            unfold polledDataIntoNetObject at h ⊢
            split at h
            next h4 =>
              rw [if_pos h4]
              rfl
            next h4 => exact absurd rfl h
          next h3 => exact absurd rfl h

/-- An element with errors has no value. -/
theorem cacheAnswer_value (name : String) (h : (cacheAnswer dev idl name).errList ≠ []) :
    (cacheAnswer dev idl name).value = none := by
  unfold cacheAnswer at h ⊢
  split at h
  · rfl
  · split at h
    next h1 =>
      rw [if_pos h1]
      exact polledToReply_value h
    next h1 =>
      rw [if_neg h1]
      split at h
      · rfl
      · exact polledToReply_value h

end Loops

end CppTango.Device.Read
