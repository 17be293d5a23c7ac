import CppTango.Lib.Numbers

namespace CppTango.Db

open CppTango.Lib

/-- One name with its values. -/
structure DbDatum where
  name : String
  valueString : List String
deriving DecidableEq, Repr

abbrev DbData := List DbDatum

/-- A count, as it stands in a request or a reply. -/
def numText (n : Nat) : String := String.ofList (intText n)

section Requests

/-- The strings of one property in a request. -/
def DbDatum.strings (d : DbDatum) : List String := d.name :: numText d.valueString.length :: d.valueString

/-- `Database::put_device_property` and `put_class_property`. -/
def putProperty (owner : String) (dbData : DbData) : List String :=
  owner :: numText dbData.length :: dbData.flatMap DbDatum.strings

/-- `DbDatum >> short`, for a count. A datum without one has no meaning here. -/
def DbDatum.short (d : DbDatum) : Option Nat :=
  match d.valueString with
  | [] => none
  | s :: _ => (readSigned 16 s.toList).bind (fun i => if 0 ≤ i then some i.toNat else none)

/-- The loop over attributes: their number and the strings of all of them. The first argument
bounds the turns of the loop. -/
def putAttributes : Nat → DbData → Option (Nat × List String)
  | _,[] => some (0,[])
  | 0,_ => none
  | fuel + 1,d :: ds =>
    match d.short with
    | none => none
    | some nProps =>
      if nProps ≤ ds.length then
        (putAttributes fuel (ds.drop nProps)).map (fun (n,l) =>
          (n + 1,d.name :: numText nProps :: (ds.take nProps).flatMap DbDatum.strings ++ l))
      else none

/-- `Database::put_device_attribute_property` and `put_class_attribute_property`. -/
def putAttributeProperty (owner : String) (dbData : DbData) : Option (List String) :=
  (putAttributes dbData.length dbData).map (fun (n,l) => owner :: numText n :: l)

/-- The request to get or to delete properties: names only. -/
def namesRequest (owner : String) (dbData : DbData) : List String :=
  owner :: dbData.map DbDatum.name

/-- A name with properties: one attribute of a request or of a reply. -/
structure AttrBlock where
  name : String
  props : DbData
deriving DecidableEq, Repr

/-- The request as its caller builds it: the attribute with the number of its properties first. -/
def AttrBlock.data (b : AttrBlock) : DbData := ⟨b.name,[numText b.props.length]⟩ :: b.props

def AttrBlock.strings (b : AttrBlock) : List String :=
  b.name :: numText b.props.length :: b.props.flatMap DbDatum.strings

end Requests

section Replies

def readUInt (s : String) : Nat := (readUnsigned 32 s.toList).getD (2 ^ 32 - 1)

def readInt (s : String) : Nat := ((readSigned 32 s.toList).map Int.toNat).getD (2 ^ 31 - 1)

def readUShort (s : String) : Nat := (readUnsigned 16 s.toList).getD (2 ^ 16 - 1)

def readShort (s : String) : Nat := ((readSigned 16 s.toList).map Int.toNat).getD (2 ^ 15 - 1)

/-- The next `n` strings. A reply that ends before them has no meaning. -/
def takeStrings (n : Nat) (c : List String) : Option (List String × List String) :=
  if n ≤ c.length then some (c.take n,c.drop n) else none

/-- The values of one property; with `skip` one dummy value stands for an empty list. -/
def readValues (skip : Bool) (nValues : Nat) (c : List String) : Option (List String × List String) :=
  if skip ∧ nValues = 0 then some ([],c.drop 1) else takeStrings nValues c

def readProps (skip : Bool) : Nat → List String → Option (DbData × List String)
  | 0,c => some ([],c)
  | n + 1,name :: count :: c =>
    match readValues skip (readInt count) c with
    | none => none
    | some (vals,c) => (readProps skip n c).map (fun (ds,c) => (⟨name,vals⟩ :: ds,c))
  | _,_ => none

/-- What `Database::get_device_property` (with `skip`) and `get_class_property` make of a reply. -/
def decodeProperty (skip : Bool) (reply : List String) : Option DbData :=
  match reply with
  | _ :: count :: c => (readProps skip (readUInt count) c).map Prod.fst
  | _ => none

/-- Attribute after attribute: its name with the number of its properties, then these. -/
def readAttrs (readCount : String → Nat) : Nat → List String → Option DbData
  | 0,_ => some []
  | n + 1,name :: count :: c =>
    match readProps true (readCount count) c with
    | none => none
    | some (ds,c) =>
      (readAttrs readCount n c).map (fun l => ⟨name,[numText (readCount count)]⟩ :: ds ++ l)
  | _,_ => none

def decodeAttributeProperty (readCount : String → Nat) (reply : List String) : Option DbData :=
  match reply with
  | _ :: count :: c => readAttrs readCount (readUInt count) c
  | _ => none

/-- `Database::get_device_attribute_property`, for `serv_version >= 230`. -/
def decodeDeviceAttributeProperty (reply : List String) : Option DbData :=
  decodeAttributeProperty readUShort reply

def decodeClassAttributeProperty (reply : List String) : Option DbData :=
  decodeAttributeProperty readShort reply

end Replies

section Texts
variable {n : Nat}

theorem toList_numText (n : Nat) : (numText n).toList = intText n := by
  unfold numText
  rw [String.toList_ofList]

theorem numText_zero : numText 0 = "0" := by decide

theorem readUInt_numText (h : n < 2 ^ 32) : readUInt (numText n) = n := by
  unfold readUInt
  rw [toList_numText,readUnsigned_intText 32 n (by decide) h]
  rfl

theorem readUShort_numText (h : n < 2 ^ 16) : readUShort (numText n) = n := by
  unfold readUShort
  rw [toList_numText,readUnsigned_intText 16 n (by decide) h]
  rfl

theorem readInt_numText (h : n < 2 ^ 31) : readInt (numText n) = n := by
  unfold readInt
  rw [toList_numText,readSigned_intText 32 n (by omega)]
  rfl

theorem readShort_numText (h : n < 2 ^ 15) : readShort (numText n) = n := by
  unfold readShort
  rw [toList_numText,readSigned_intText 16 n (by omega)]
  rfl

theorem takeStrings_append (xs c : List String) : takeStrings xs.length (xs ++ c) = some (xs,c) := by
  unfold takeStrings
  rw [if_pos (by simp),List.take_left,List.drop_left]

end Texts

section Reading
variable {skip : Bool} {n : Nat} {c : List String}

/-- A property whose values are not mistaken for a dummy. -/
theorem readProps_cons (d : DbDatum) (h : d.valueString.length < 2 ^ 31)
    (hs : skip = true → d.valueString ≠ []) :
    readProps skip (n + 1) (d.strings ++ c) =
      (readProps skip n c).map (fun x => (d :: x.1,x.2)) := by
  have hnot : ¬ (skip = true ∧ d.valueString.length = 0) := by
    rintro ⟨h1,h2⟩
    exact hs h1 (List.eq_nil_of_length_eq_zero h2)
  unfold DbDatum.strings
  rw [List.cons_append,List.cons_append,readProps,readInt_numText h]
  unfold readValues
  rw [if_neg hnot,takeStrings_append]

/-- An empty list with its dummy value. -/
theorem readProps_dummy (name : String) (dummy : String) :
    readProps true (n + 1) (name :: "0" :: dummy :: c) =
      (readProps true n c).map (fun x => (⟨name,[]⟩ :: x.1,x.2)) := by
  have hz : readInt "0" = 0 := by decide
  rw [readProps,hz]
  rfl

/-- All properties of a list, none of them empty when a dummy is looked for. -/
theorem readProps_all (ds : DbData) (h : ∀ d ∈ ds, d.valueString.length < 2 ^ 31)
    (hs : skip = true → ∀ d ∈ ds, d.valueString ≠ []) (c : List String) :
    readProps skip ds.length (ds.flatMap DbDatum.strings ++ c) = some (ds,c) := by
  induction ds with
  | nil => rfl
  | cons d ds ih =>
    rw [List.length_cons,List.flatMap_cons,List.append_assoc,
      readProps_cons d (h d List.mem_cons_self) (fun hk => hs hk d List.mem_cons_self),
      ih (fun x hx => h x (List.mem_cons_of_mem _ hx))
        (fun hk x hx => hs hk x (List.mem_cons_of_mem _ hx))]
    rfl

/-- At the end of a reply the missing dummy of an empty list does no harm. -/
theorem readProps_end (ds : DbData) (h : ∀ d ∈ ds, d.valueString.length < 2 ^ 31)
    (hs : ∀ d ∈ ds.dropLast, d.valueString ≠ []) :
    readProps true ds.length (ds.flatMap DbDatum.strings) = some (ds,[]) := by
  rcases List.eq_nil_or_concat ds with rfl | ⟨front,d,rfl⟩
  · rfl
  · rw [List.concat_eq_append] at h hs ⊢
    rw [List.dropLast_concat] at hs
    have hd := h d (by simp)
    by_cases hv : d.valueString = []
    · obtain ⟨name,vals⟩ := d
      simp only at hv
      subst hv
      have hlast : ∀ front : DbData, (∀ d ∈ front, d.valueString.length < 2 ^ 31) →
          (∀ d ∈ front, d.valueString ≠ []) →
          readProps true (front ++ [(⟨name,[]⟩ : DbDatum)]).length
            ((front ++ [(⟨name,[]⟩ : DbDatum)]).flatMap DbDatum.strings) =
              some (front ++ [⟨name,[]⟩],[]) := by
        intro front
        induction front with
        | nil =>
          intro _ _
          have hz : readInt (numText 0) = 0 := by decide
          simp [DbDatum.strings,readProps,hz,readValues]
        | cons e front ih =>
          intro hl hn
          rw [List.cons_append,List.length_cons,List.flatMap_cons,
            readProps_cons e (hl e List.mem_cons_self) (fun _ => hn e List.mem_cons_self),
            ih (fun x hx => hl x (List.mem_cons_of_mem _ hx))
              (fun x hx => hn x (List.mem_cons_of_mem _ hx))]
          rfl
      exact hlast front (fun x hx => h x (List.mem_append_left _ hx)) hs
    · have hne : ∀ x ∈ front ++ [d], x.valueString ≠ [] := by
        intro x hx
        rcases List.mem_append.mp hx with hx | hx
        · exact hs x hx
        · rw [List.mem_singleton] at hx
          rw [hx]
          exact hv
      have hall : readProps true (front ++ [d]).length
          ((front ++ [d]).flatMap DbDatum.strings ++ []) = some (front ++ [d],[]) :=
        readProps_all (front ++ [d]) h (fun _ => hne) []
      rwa [List.append_nil] at hall

/-- Empty lists of values are at the end of a reply only. -/
def Gapless : List AttrBlock → Prop
  | [] => True
  | [b] => ∀ d ∈ b.props.dropLast, d.valueString ≠ []
  | b :: b' :: bs => (∀ d ∈ b.props, d.valueString ≠ []) ∧ Gapless (b' :: bs)

theorem readAttrs_blocks {readCount : String → Nat} {bs : List AttrBlock}
    (hcount : ∀ b ∈ bs, readCount (numText b.props.length) = b.props.length)
    (hsized : ∀ b ∈ bs, ∀ d ∈ b.props, d.valueString.length < 2 ^ 31) (hg : Gapless bs) :
    readAttrs readCount bs.length (bs.flatMap AttrBlock.strings) = some (bs.flatMap AttrBlock.data) := by
  induction bs with
  | nil => rfl
  | cons b bs ih =>
    have hb := hcount b List.mem_cons_self
    have hsz := hsized b List.mem_cons_self
    rw [List.length_cons,List.flatMap_cons,List.flatMap_cons,AttrBlock.strings,List.cons_append,
      List.cons_append,readAttrs,hb]
    cases bs with
    | nil =>
      rw [List.flatMap_nil,List.append_nil,readProps_end b.props hsz hg]
      rfl
    | cons b' bs =>
      rw [readProps_all b.props hsz (fun _ => hg.1)]
      simp only
      rw [ih (fun x hx => hcount x (List.mem_cons_of_mem _ hx))
        (fun x hx => hsized x (List.mem_cons_of_mem _ hx)) hg.2]
      rfl

theorem gapless_of_valued {bs : List AttrBlock} (h : ∀ b ∈ bs, ∀ d ∈ b.props, d.valueString ≠ []) :
    Gapless bs := by
  induction bs with
  | nil => trivial
  | cons b bs ih =>
    have hb := h b List.mem_cons_self
    cases bs with
    | nil => exact fun d hd => hb d (List.dropLast_subset _ hd)
    | cons b' bs => exact ⟨hb,ih (fun x hx => h x (List.mem_cons_of_mem _ hx))⟩

end Reading

end CppTango.Db
