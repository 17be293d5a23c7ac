import CppTango.Db.FileRestore

namespace CppTango.Db

open CppTango.Lib CppTango.Device

section Pieces

def classPropPiece (c : TTangoClass) (p : TProperty) : Piece :=
  .statement ("CLASS".toList ++ '/' :: (c.name.toList ++ '-' :: '>' :: (p.name.toList ++ ':' :: ' ' ::
    writeClassValues (6 + c.name.length + 2 + p.name.length + 2) p.value))) "CLASS"
    (fun s => .ok (addClassProp s c.name p))

def classAttPiece (c : TTangoClass) (a : TAttributeProperty) (p : TProperty) : Piece :=
  .statement ("CLASS".toList ++ '/' :: (c.name.toList ++ '/' :: (a.attributeName.toList ++ '-' :: '>' ::
    (p.name.toList ++ ':' :: ' ' ::
      writeValues (6 + c.name.length + 1 + a.attributeName.length + 2 + p.name.length + 2) p.value)))) "CLASS"
    (fun s => .ok (addClassAttProp s c.name a.attributeName p))

def classHeader (c : TTangoClass) : Text :=
  "#############################################\n".toList ++ ("# CLASS ".toList ++ c.name.toList ++ "\n\n".toList)

def classAttHeader (c : TTangoClass) : Text :=
  "\n".toList ++ ("# CLASS ".toList ++ c.name.toList ++ " attribute properties\n\n".toList)

/-- The parts of the file about one class. -/
def classPieces (c : TTangoClass) : List Piece :=
  .junk (classHeader c) :: (c.properties.flatMap (fun p => [classPropPiece c p]) ++
    .junk (classAttHeader c) :: (c.attributeProperties.flatMap (fun a =>
      a.properties.flatMap (fun p => [classAttPiece c a p])) ++ [.junk ['\n']]))

/-- The first word of a device name. -/
def domainOf (d : TDevice) : String := String.ofList (d.name.toList.takeWhile (· ≠ '/'))

def devPropPiece (d : TDevice) (p : TProperty) : Piece :=
  .statement (d.name.toList ++ '-' :: '>' :: (p.name.toList ++ ':' :: ' ' ::
    writeValues (d.name.length + 1 + p.name.length + 2) p.value)) (domainOf d)
    (fun s => .ok (addDevProp s d.name p))

def devAttPiece (d : TDevice) (a : TAttributeProperty) (p : TProperty) : Piece :=
  .statement (d.name.toList ++ '/' :: (a.attributeName.toList ++ '-' :: '>' :: (p.name.toList ++ ':' :: ' ' ::
    writeValues (d.name.length + 1 + a.attributeName.length + 2 + p.name.length + 2) p.value))) (domainOf d)
    (fun s => addDevAttProp s d.name a.attributeName p)

def deviceHeader (d : TDevice) : Text := "# DEVICE ".toList ++ d.name.toList ++ " properties \n\n".toList

def deviceAttHeader (d : TDevice) : Text :=
  "\n".toList ++ ("# DEVICE ".toList ++ d.name.toList ++ " attribute properties\n\n".toList)

/-- The parts of the file about one device. -/
def devicePieces (d : TDevice) : List Piece :=
  .junk (deviceHeader d) :: (d.properties.flatMap (fun p => [devPropPiece d p]) ++
    .junk (deviceAttHeader d) :: d.attributeProperties.flatMap (fun a =>
      a.properties.flatMap (fun p => [devAttPiece d a p])))

def freePiece (o : TFreeObject) (p : TProperty) : Piece :=
  .statement ("FREE".toList ++ '/' :: (o.name.toList ++ '-' :: '>' :: (p.name.toList ++ ':' :: ' ' ::
    writeValues (5 + o.name.length + 2 + p.name.length + 2) p.value))) "FREE"
    (fun s => .ok (addFreeProp s o.name p))

/-- The names of devices in quotes, one on each line. -/
def deviceNames (margin : Nat) : List String → Text
  | [] => []
  | d :: ds => quotedName d ++ ds.flatMap (fun d => nextLine margin (quotedName d))

def classPiece (s : TServer) (c : TTangoClass) : Piece :=
  .statement (s.name.toList ++ '/' :: (s.instanceName.toList ++ '/' :: ("DEVICE".toList ++ '/' ::
    (c.name.toList ++ ':' :: ' ' ::
      deviceNames (s.name.length + 1 + s.instanceName.length + 8 + c.name.length + 2) c.devices)))) s.name
    (fun s' => .ok (defineClass s' s.instanceName c.name c.devices))

def freeHeader : Text := "#############################################\n# FREE OBJECT attributes\n\n".toList

/-- The parts of the file. -/
def filePieces (s : TServer) : List Piece :=
  s.classes.flatMap (fun c => [classPiece s c]) ++ .junk ['\n'] :: (s.classes.flatMap classPieces ++
    .junk ['\n'] :: (s.devices.flatMap devicePieces ++
      .junk freeHeader :: s.freeObjects.flatMap (fun o => o.properties.flatMap (fun p => [freePiece o p]))))

theorem text_classPieces (c : TTangoClass) : (classPieces c).flatMap Piece.text = classBlock c := by
  have hprop : ∀ p, (classPropPiece c p).text = classPropLine c p := by
    intro p
    simp only [classPropPiece,Piece.text,classPropLine,propHead,List.append_assoc,List.cons_append]
    rfl
  have hatt : ∀ a p, (classAttPiece c a p).text = classAttLine c a p := by
    intro a p
    simp only [classAttPiece,Piece.text,classAttLine,propHead,List.append_assoc,List.cons_append]
    rfl
  have hjunk : ∀ g, (Piece.junk g).text = g := fun _ => rfl
  unfold classPieces classBlock classHeader classAttHeader
  simp only [List.flatMap_cons,List.flatMap_append,List.flatMap_assoc,List.flatMap_nil,List.append_nil,
    hprop,hatt,hjunk,List.append_assoc]
  rfl

theorem text_devicePieces (d : TDevice) : (devicePieces d).flatMap Piece.text = deviceBlock d := by
  have hprop : ∀ p, (devPropPiece d p).text = devPropLine d p := by
    intro p
    simp only [devPropPiece,Piece.text,devPropLine,propHead,List.append_assoc,List.cons_append]
    rfl
  have hatt : ∀ a p, (devAttPiece d a p).text = devAttLine d a p := by
    intro a p
    simp only [devAttPiece,Piece.text,devAttLine,propHead,List.append_assoc,List.cons_append]
    rfl
  have hjunk : ∀ g, (Piece.junk g).text = g := fun _ => rfl
  unfold devicePieces deviceBlock deviceHeader deviceAttHeader
  simp only [List.flatMap_cons,List.flatMap_append,List.flatMap_assoc,List.flatMap_nil,List.append_nil,
    hprop,hatt,hjunk,List.append_assoc]

/-- The file is made of its parts. -/
theorem text_filePieces (s : TServer) : (filePieces s).flatMap Piece.text = writeFile s := by
  have hclass : ∀ c, (classPiece s c).text = deviceLine s c := by
    intro c
    unfold classPiece deviceLine
    cases c.devices with
    | nil =>
      simp only [Piece.text,deviceNames,List.append_assoc,List.cons_append]
      rfl
    | cons d ds =>
      simp only [Piece.text,deviceNames,List.append_assoc,List.cons_append]
      rfl
  have hfree : ∀ o p, (freePiece o p).text = freeLine o p := by
    intro o p
    simp only [freePiece,Piece.text,freeLine,propHead,List.append_assoc,List.cons_append]
    rfl
  have hjunk : ∀ g, (Piece.junk g).text = g := fun _ => rfl
  unfold filePieces writeFile freeHeader
  simp only [List.flatMap_cons,List.flatMap_append,List.flatMap_assoc,List.flatMap_nil,List.append_nil,
    hclass,hfree,hjunk,text_classPieces,text_devicePieces,List.append_assoc]
  rfl

end Pieces

section Effects
variable {β : Type} {I : TServer → Prop} {s : TServer}

theorem effects_one (x : Text) (w : String) (e : TServer → Except ParseError TServer) (s : TServer) :
    effects [.statement x w e] s = e s := by
  rw [effects_statement]
  cases e s with
  | error err => rfl
  | ok s' => rfl

/-- Blocks of parts, each of them with an effect that keeps what the next one needs. -/
theorem effects_flatMap {block : β → List Piece} {f : TServer → β → TServer} (l : List β)
    (h : ∀ b ∈ l, ∀ s, I s → effects (block b) s = .ok (f s b) ∧ I (f s b)) (hs : I s) :
    effects (l.flatMap block) s = .ok (l.foldl f s) ∧ I (l.foldl f s) := by
  induction l generalizing s with
  | nil => exact ⟨rfl,hs⟩
  | cons b l ih =>
    obtain ⟨hb,hi⟩ := h b List.mem_cons_self s hs
    obtain ⟨hl,hI⟩ := ih (fun b' hb' => h b' (List.mem_cons_of_mem _ hb')) hi
    refine ⟨?_,hI⟩
    rw [List.flatMap_cons,effects_append,hb]
    exact hl

/-- The same when nothing is needed. -/
theorem effects_flatMap_all {block : β → List Piece} {f : TServer → β → TServer} (l : List β)
    (h : ∀ b ∈ l, ∀ s, effects (block b) s = .ok (f s b)) (s : TServer) :
    effects (l.flatMap block) s = .ok (l.foldl f s) :=
  (effects_flatMap (I := fun _ => True) l (fun b hb s _ => ⟨h b hb s,trivial⟩) trivial).1

/-- Add a property to an owner. -/
def addProp (p : TProperty) (d : TDevice) : TDevice := { d with properties := d.properties ++ [p] }

def addProps (ps : List TProperty) (d : TDevice) : TDevice := { d with properties := d.properties ++ ps }

theorem foldl_addProp (ps : List TProperty) (d : TDevice) :
    ps.foldl (fun d p => addProp p d) d = addProps ps d := by
  unfold addProps
  induction ps generalizing d with
  | nil =>
    rw [List.append_nil]
    rfl
  | cons p ps ih =>
    rw [List.foldl_cons,ih]
    simp only [addProp,List.append_assoc,List.singleton_append]

/-- Add a property to an attribute of an owner. -/
def addAttOne (attName : String) (p : TProperty) (d : TDevice) : TDevice :=
  { d with attributeProperties := addAttProp attName p d.attributeProperties }

def addAtt (a : TAttributeProperty) (d : TDevice) : TDevice :=
  a.properties.foldl (fun d p => addAttOne a.attributeName p d) d

theorem addAtt_eq (a : TAttributeProperty) (d : TDevice) :
    addAtt a d = { d with
      attributeProperties := a.properties.foldl (fun l p => addAttProp a.attributeName p l) d.attributeProperties } := by
  unfold addAtt
  generalize a.properties = ps
  induction ps generalizing d with
  | nil => rfl
  | cons p ps ih =>
    rw [List.foldl_cons,ih]
    rfl

theorem foldl_addAtt (as : List TAttributeProperty) (d : TDevice) :
    as.foldl (fun d a => addAtt a d) d = { d with
      attributeProperties := as.foldl (fun l a => a.properties.foldl
        (fun l p => addAttProp a.attributeName p l) l) d.attributeProperties } := by
  induction as generalizing d with
  | nil => rfl
  | cons a as ih =>
    rw [List.foldl_cons,ih,addAtt_eq]
    rfl

theorem addAtt_name (a : TAttributeProperty) (d : TDevice) : (addAtt a d).name = d.name := by
  rw [addAtt_eq]

theorem fill_eq (d d0 : TDevice) :
    d.fill d0 = d.attributeProperties.foldl (fun d a => addAtt a d) (addProps d.properties d0) := by
  rw [foldl_addAtt]
  rfl

theorem effects_classPieces (c : TTangoClass) (s : TServer) :
    effects (classPieces c) s = .ok (onClass c.name c.toTDevice.fill s) := by
  have hprop : ∀ p ∈ c.properties, ∀ s, effects [classPropPiece c p] s =
      .ok (onClass c.name (addProp p) s) :=
    fun p _ s => effects_one _ _ _ s
  have hprops : ∀ s, effects (c.properties.flatMap (fun p => [classPropPiece c p])) s =
      .ok (onClass c.name (addProps c.properties) s) := by
    intro s
    rw [effects_flatMap_all _ hprop,foldl_onClass (g := addProp) (fun _ _ => rfl)]
    simp only [foldl_addProp]
  have hatt : ∀ a ∈ c.attributeProperties, ∀ s, effects (a.properties.flatMap (fun p => [classAttPiece c a p])) s =
      .ok (onClass c.name (addAtt a) s) := by
    intro a _ s
    have hone : ∀ p ∈ a.properties, ∀ s, effects [classAttPiece c a p] s = .ok (onClass c.name
        (addAttOne a.attributeName p) s) :=
      fun p _ s => effects_one _ _ _ s
    rw [effects_flatMap_all _ hone,foldl_onClass (g := addAttOne a.attributeName) (fun _ _ => rfl)]
    rfl
  unfold classPieces
  rw [effects_junk,effects_append,hprops]
  simp only [Except.bind]
  rw [effects_junk,effects_append,effects_flatMap_all _ hatt,foldl_onClass addAtt_name]
  simp only [Except.bind]
  rw [effects_junk,onClass_comp (f := addProps c.properties) (fun _ => rfl)]
  simp only [← fill_eq]
  rfl

/-- The device is there. -/
def HasDevice (n : String) (s : TServer) : Prop := s.devices.any (fun d => equalsIgnoreCase d.name n) = true

theorem hasDevice_onDevice {n m : String} {f : TDevice → TDevice} (hf : ∀ d, (f d).name = d.name)
    (h : HasDevice n s) : HasDevice n (onDevice m f s) := by
  have hkeys : (onDevice m f s).devices.map TDevice.name = s.devices.map TDevice.name := keys_updateFirst hf
  have hany : ∀ l : List TDevice, l.any (fun d => equalsIgnoreCase d.name n) =
      (l.map TDevice.name).any (fun m => equalsIgnoreCase m n) := by
    intro l
    rw [List.any_map]
    rfl
  unfold HasDevice at h ⊢
  rw [hany] at h ⊢
  rw [hkeys]
  exact h

theorem effects_devicePieces (d : TDevice) (h : HasDevice d.name s) :
    effects (devicePieces d) s = .ok (onDevice d.name d.fill s) := by
  have hprop : ∀ p ∈ d.properties, ∀ s, effects [devPropPiece d p] s =
      .ok (onDevice d.name (addProp p) s) :=
    fun p _ s => effects_one _ _ _ s
  have hprops : ∀ s, effects (d.properties.flatMap (fun p => [devPropPiece d p])) s =
      .ok (onDevice d.name (addProps d.properties) s) := by
    intro s
    rw [effects_flatMap_all _ hprop,foldl_onDevice (g := addProp) (fun _ _ => rfl)]
    simp only [foldl_addProp]
  have hatt : ∀ a ∈ d.attributeProperties, ∀ s, HasDevice d.name s →
      effects (a.properties.flatMap (fun p => [devAttPiece d a p])) s = .ok (onDevice d.name (addAtt a) s) ∧
        HasDevice d.name (onDevice d.name (addAtt a) s) := by
    intro a _ s hs
    refine ⟨?_,hasDevice_onDevice (addAtt_name a) hs⟩
    have hone : ∀ p ∈ a.properties, ∀ s, HasDevice d.name s →
        effects [devAttPiece d a p] s = .ok (onDevice d.name (addAttOne a.attributeName p) s) ∧
        HasDevice d.name (onDevice d.name (addAttOne a.attributeName p) s) := by
      intro p _ s hs
      refine ⟨?_,hasDevice_onDevice (fun _ => rfl) hs⟩
      unfold devAttPiece
      rw [effects_one]
      unfold addDevAttProp
      unfold HasDevice at hs
      rw [if_pos hs]
      rfl
    rw [(effects_flatMap _ hone hs).1,foldl_onDevice (g := addAttOne a.attributeName) (fun _ _ => rfl)]
    rfl
  unfold devicePieces
  rw [effects_junk,effects_append,hprops]
  simp only [Except.bind]
  have hkept : HasDevice d.name (onDevice d.name (addProps d.properties) s) :=
    hasDevice_onDevice (fun _ => rfl) h
  rw [effects_junk,(effects_flatMap _ hatt hkept).1,foldl_onDevice addAtt_name,
    onDevice_comp (f := addProps d.properties) (fun _ => rfl)]
  simp only [← fill_eq]

end Effects

end CppTango.Db
