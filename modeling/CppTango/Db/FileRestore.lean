import CppTango.Db.FileStatements
import CppTango.Db.FileTables

namespace CppTango.Db

open CppTango.Lib CppTango.Device

section Owners

/-- The attributes that have properties. -/
def writtenAtts (atts : List TAttributeProperty) : List TAttributeProperty :=
  atts.filter (fun a => !a.properties.isEmpty)

/-- A device, or a class, without the attributes that have no properties: they leave no trace in the
file. -/
def TDevice.written (d : TDevice) : TDevice := { d with attributeProperties := writtenAtts d.attributeProperties }

def TTangoClass.written (c : TTangoClass) : TTangoClass := { c with toTDevice := c.toTDevice.written }

/-- The properties that a file has for one owner, added to what it has. -/
def TDevice.fill (d : TDevice) (d0 : TDevice) : TDevice :=
  { d0 with
    properties := d0.properties ++ d.properties
    attributeProperties := d.attributeProperties.foldl
      (fun atts a => a.properties.foldl (fun atts p => addAttProp a.attributeName p atts) atts)
      d0.attributeProperties }

/-- Names that differ in more than the case of their letters, and are not empty. -/
structure Named {α : Type} (name : α → String) (l : List α) : Prop where
  names : (l.map (fun a => lowerName (name a))).Nodup
  nonempty : ∀ a ∈ l, name a ≠ ""

theorem Named.other {α : Type} {name : α → String} {l : List α} (h : Named name l) :
    l.Pairwise (fun a b => equalsIgnoreCase (name a) (name b) = false) := by
  have hp := h.names
  rw [List.Nodup,List.pairwise_map] at hp
  apply hp.imp
  intro a b hab
  rw [Bool.eq_false_iff]
  exact fun he => hab (equalsIgnoreCase_iff.mp he).1

theorem Named.self {α : Type} {name : α → String} {l : List α} (h : Named name l) {a : α} (ha : a ∈ l) :
    equalsIgnoreCase (name a) (name a) = true := equalsIgnoreCase_iff.mpr ⟨rfl,h.nonempty a ha⟩

theorem fold_atts {atts : List TAttributeProperty} (h : Named TAttributeProperty.attributeName atts) :
    atts.foldl (fun l a => a.properties.foldl (fun l p => addAttProp a.attributeName p l) l) [] =
      writtenAtts atts := by
  have hgroups : atts.foldl (fun l a => a.properties.foldl (addItem TAttributeProperty.mk hasAttributeName
      (fun p a => { a with properties := a.properties ++ [p] }) a.attributeName) l) [] =
      [] ++ (writtenAtts atts).map (fun a => ⟨a.attributeName,a.properties⟩) :=
    foldl_groups (fun _ _ _ => rfl) (fun a ha _ => h.self ha) (h.other.imp (fun hab _ => hab)) (fun _ _ => rfl)
  rw [List.nil_append,List.map_id'] at hgroups
  exact hgroups

theorem fold_free {objs : List TFreeObject} (h : Named TFreeObject.name objs) (s : TServer)
    (hs : s.freeObjects = []) :
    objs.foldl (fun s o => o.properties.foldl (fun s p => addFreeProp s o.name p) s) s =
      { s with freeObjects := objs.filter (fun o => !o.properties.isEmpty) } := by
  have hone : ∀ (o : TFreeObject) (ps : List TProperty) (s : TServer),
      ps.foldl (fun s p => addFreeProp s o.name p) s =
        { s with freeObjects := ps.foldl (addItem TFreeObject.mk (fun n o => equalsIgnoreCase o.name n)
            (fun p o => { o with properties := o.properties ++ [p] }) o.name) s.freeObjects } := by
    intro o ps
    induction ps with
    | nil => exact fun _ => rfl
    | cons p ps ih => exact fun s => ih (addFreeProp s o.name p)
  have hall : ∀ (objs : List TFreeObject) (s : TServer),
      objs.foldl (fun s o => o.properties.foldl (fun s p => addFreeProp s o.name p) s) s =
        { s with freeObjects := objs.foldl (fun l o => o.properties.foldl (addItem TFreeObject.mk
            (fun n o => equalsIgnoreCase o.name n)
            (fun p o => { o with properties := o.properties ++ [p] }) o.name) l) s.freeObjects } := by
    intro objs
    induction objs with
    | nil => exact fun _ => rfl
    | cons o objs ih =>
      intro s
      rw [List.foldl_cons,hone,ih]
      rfl
  have hgroups : objs.foldl (fun l o => o.properties.foldl (addItem TFreeObject.mk
      (fun n o => equalsIgnoreCase o.name n)
      (fun p o => { o with properties := o.properties ++ [p] }) o.name) l) [] =
      [] ++ (objs.filter (fun o => !o.properties.isEmpty)).map (fun o => ⟨o.name,o.properties⟩) :=
    foldl_groups (fun _ _ _ => rfl) (fun o ho _ => h.self ho) (h.other.imp (fun hab _ => hab)) (fun _ _ => rfl)
  rw [List.nil_append,List.map_id'] at hgroups
  rw [hall,hs,hgroups]

/-- An owner that was new is as it was written. -/
theorem fill_new {d : TDevice} (h : Named TAttributeProperty.attributeName d.attributeProperties) :
    d.fill ⟨d.name,[],[]⟩ = d.written := by
  unfold TDevice.fill TDevice.written
  simp only [List.nil_append]
  rw [fold_atts h]

end Owners

section Updates

def onDevice (n : String) (f : TDevice → TDevice) (s : TServer) : TServer :=
  { s with devices := updateFirst (fun d => equalsIgnoreCase d.name n) f s.devices }

def TTangoClass.on (f : TDevice → TDevice) (c : TTangoClass) : TTangoClass := ⟨f c.toTDevice,c.devices⟩

def onClass (n : String) (f : TDevice → TDevice) (s : TServer) : TServer :=
  { s with classes := updateFirst (fun c => equalsIgnoreCase c.name n) (TTangoClass.on f) s.classes }

variable {β : Type} {g : β → TDevice → TDevice}

theorem foldl_onDevice (hg : ∀ x d, (g x d).name = d.name) (n : String) (xs : List β) (s : TServer) :
    xs.foldl (fun s x => onDevice n (g x) s) s = onDevice n (fun d => xs.foldl (fun d x => g x d) d) s := by
  have hs : ∀ (xs : List β) (s : TServer), xs.foldl (fun s x => onDevice n (g x) s) s =
      ⟨s.name,s.instanceName,s.classes,
        xs.foldl (fun l x => updateFirst (fun d => equalsIgnoreCase d.name n) (g x) l) s.devices,
        s.freeObjects⟩ := by
    intro xs
    induction xs with
    | nil => exact fun _ => rfl
    | cons x xs ih => exact fun s => ih (onDevice n (g x) s)
  rw [hs,foldl_updateFirst (fun x d => by rw [hg])]
  rfl

theorem foldl_onClass (hg : ∀ x d, (g x d).name = d.name) (n : String) (xs : List β) (s : TServer) :
    xs.foldl (fun s x => onClass n (g x) s) s = onClass n (fun d => xs.foldl (fun d x => g x d) d) s := by
  have hs : ∀ (xs : List β) (s : TServer), xs.foldl (fun s x => onClass n (g x) s) s =
      ⟨s.name,s.instanceName,
        xs.foldl (fun l x => updateFirst (fun c => equalsIgnoreCase c.name n) (TTangoClass.on (g x)) l) s.classes,
        s.devices,s.freeObjects⟩ := by
    intro xs
    induction xs with
    | nil => exact fun _ => rfl
    | cons x xs ih => exact fun s => ih (onClass n (g x) s)
  have hc : ∀ (xs : List β) (c : TTangoClass),
      xs.foldl (fun c x => TTangoClass.on (g x) c) c = TTangoClass.on (fun d => xs.foldl (fun d x => g x d) d) c := by
    intro xs
    induction xs with
    | nil => exact fun _ => rfl
    | cons x xs ih => exact fun c => ih (TTangoClass.on (g x) c)
  have hname : ∀ x c, equalsIgnoreCase (TTangoClass.on (g x) c).name n = equalsIgnoreCase c.name n := by
    intro x c
    exact congrArg (fun m => equalsIgnoreCase m n) (hg x c.toTDevice)
  rw [hs,foldl_updateFirst hname]
  simp only [hc]
  rfl

theorem onDevice_comp {f h : TDevice → TDevice} (hf : ∀ d, (f d).name = d.name) (n : String) (s : TServer) :
    onDevice n h (onDevice n f s) = onDevice n (fun d => h (f d)) s := by
  unfold onDevice
  simp only
  rw [updateFirst_comp (fun d => by rw [hf])]

theorem onClass_comp {f h : TDevice → TDevice} (hf : ∀ d, (f d).name = d.name) (n : String) (s : TServer) :
    onClass n h (onClass n f s) = onClass n (fun d => h (f d)) s := by
  have hname : ∀ c, equalsIgnoreCase (TTangoClass.on f c).name n = equalsIgnoreCase c.name n := by
    intro c
    exact congrArg (fun m => equalsIgnoreCase m n) (hf c.toTDevice)
  unfold onClass
  simp only
  rw [updateFirst_comp hname]
  rfl

end Updates

end CppTango.Db
