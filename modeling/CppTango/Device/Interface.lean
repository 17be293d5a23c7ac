import CppTango.Device.MultiAttribute
import CppTango.Lib.Lists
import Mathlib.Data.List.Lex
import Mathlib.Data.Char

namespace CppTango.Device.Interface
open CppTango.Lib

section Device

structure Command where
  name : String
  inType : CmdArgType
  outType : CmdArgType
deriving DecidableEq

/-- What a `WAttribute` has besides. -/
structure WAttribute where
  memorized : Bool
  memorizedInit : Bool
deriving DecidableEq

def writes (w : AttrWriteType) : Bool := w = .readWrite || w = .write

/-- An attribute; it is a `WAttribute` when it is written itself. -/
structure Attribute where
  name : String
  writable : AttrWriteType
  dataType : CmdArgType
  dataFormat : AttrDataFormat
  maxX : Int
  maxY : Int
  assocName : String
  enumLabels : List String
  wAttribute : Option WAttribute
  written : wAttribute.isSome = writes writable

/-- The commands of the class and the local ones, and the attributes; names are different ignoring case. -/
structure DeviceImpl where
  commandList : List Command
  localCommandList : List Command
  attributeList : List Attribute
  commandsDiffer : ((commandList ++ localCommandList).map fun c => lowerName c.name).Nodup
  attributesDiffer : (attributeList.map fun a => lowerName a.name).Nodup

end Device

section Model

structure CmdIntr where
  name : List Char
  inType : CmdArgType
  outType : CmdArgType
deriving DecidableEq

structure AttrIntr where
  name : List Char
  writable : AttrWriteType
  dataType : CmdArgType
  dataFormat : AttrDataFormat
  maxX : Int
  maxY : Int
  mem : Bool
  memInit : Bool
  writableAttrName : String
  enumLabels : List String
deriving DecidableEq

structure DevIntr where
  cmds : List CmdIntr
  atts : List AttrIntr

/-- `CmdIntr::operator==` -/
def CmdIntr.eq (c rhs : CmdIntr) : Bool :=
  if c.name ≠ rhs.name then false
  else if c.inType ≠ rhs.inType then false
  else if c.outType ≠ rhs.outType then false
  else true

/-- `AttrIntr::operator==`: the labels are counted only. -/
def AttrIntr.eq (a rhs : AttrIntr) : Bool :=
  if a.name ≠ rhs.name then false
  else if a.writable ≠ rhs.writable then false
  else if a.dataType ≠ rhs.dataType then false
  else if a.dataFormat ≠ rhs.dataFormat then false
  else if a.maxX ≠ rhs.maxX then false
  else if a.maxY ≠ rhs.maxY then false
  else if a.mem ≠ rhs.mem then false
  else if a.memInit ≠ rhs.memInit then false
  else if a.writableAttrName ≠ rhs.writableAttrName then false
  else if a.enumLabels.length ≠ rhs.enumLabels.length then false
  else true

def cmdIntr (c : Command) : CmdIntr := ⟨lowerName c.name,c.inType,c.outType⟩

/-- What is taken of an attribute; a string that is not set is empty. -/
def attrIntr (a : Attribute) : AttrIntr where
  name := lowerName a.name
  writable := a.writable
  dataType := a.dataType
  dataFormat := a.dataFormat
  maxX := a.maxX
  maxY := a.maxY
  mem := (a.wAttribute.map (·.memorized)).getD false
  memInit := (a.wAttribute.map (·.memorizedInit)).getD false
  writableAttrName := if writes a.writable then a.assocName else ""
  enumLabels := a.enumLabels

def buildCmdInterfaces (dev : DeviceImpl) : List CmdIntr :=
  sortBy (·.name) (dev.commandList.map cmdIntr ++ dev.localCommandList.map cmdIntr)

def buildAttInterfaces (dev : DeviceImpl) : List AttrIntr := sortBy (·.name) (dev.attributeList.map attrIntr)

def getInterface (dev : DeviceImpl) : DevIntr := ⟨buildCmdInterfaces dev,buildAttInterfaces dev⟩

def DevIntr.hasChanged (di : DevIntr) (dev : DeviceImpl) : Bool :=
  if ¬ (buildCmdInterfaces dev).isEqv di.cmds CmdIntr.eq then true
  else if ¬ (buildAttInterfaces dev).isEqv di.atts AttrIntr.eq then true
  else false

end Model

section Meaning

/-- A command as the interface of a device shows it. -/
structure CommandView where
  name : List Char
  inType : CmdArgType
  outType : CmdArgType

/-- An attribute as the interface of a device shows it. -/
structure AttributeView where
  name : List Char
  writable : AttrWriteType
  dataType : CmdArgType
  dataFormat : AttrDataFormat
  maxX : Int
  maxY : Int
  memorized : Bool
  memorizedInit : Bool
  assocName : String
  enumLabels : List String

def commandView (c : Command) : CommandView := ⟨lowerName c.name,c.inType,c.outType⟩

def attributeView (a : Attribute) : AttributeView where
  name := lowerName a.name
  writable := a.writable
  dataType := a.dataType
  dataFormat := a.dataFormat
  maxX := a.maxX
  maxY := a.maxY
  memorized := (a.wAttribute.map (·.memorized)).getD false
  memorizedInit := (a.wAttribute.map (·.memorizedInit)).getD false
  assocName := a.assocName
  enumLabels := a.enumLabels

/-- The commands of a device, as a set. -/
def DeviceImpl.commands (dev : DeviceImpl) : Set CommandView :=
  {v | ∃ c ∈ dev.commandList ++ dev.localCommandList, commandView c = v}

def DeviceImpl.attributes (dev : DeviceImpl) : Set AttributeView := {v | ∃ a ∈ dev.attributeList, attributeView a = v}

/-- The interfaces of two devices, or of one at two times, differ. -/
def Differ (d e : DeviceImpl) : Prop := d.commands ≠ e.commands ∨ d.attributes ≠ e.attributes

/-- Two attributes are alike but for the texts of their labels and, when they are not written themselves, the write
attribute they are associated with. -/
structure AttributeView.Alike (a b : AttributeView) : Prop where
  name : a.name = b.name
  writable : a.writable = b.writable
  dataType : a.dataType = b.dataType
  dataFormat : a.dataFormat = b.dataFormat
  maxX : a.maxX = b.maxX
  maxY : a.maxY = b.maxY
  memorized : a.memorized = b.memorized
  memorizedInit : a.memorizedInit = b.memorizedInit
  assocName : writes a.writable = true → a.assocName = b.assocName
  labels : a.enumLabels.length = b.enumLabels.length

/-- The interfaces differ, but only in what nothing looks at. -/
structure OnlyUnseen (d e : DeviceImpl) : Prop where
  commands : d.commands = e.commands
  differ : d.attributes ≠ e.attributes
  there : ∀ a ∈ d.attributes, ∃ b ∈ e.attributes, AttributeView.Alike a b
  back : ∀ b ∈ e.attributes, ∃ a ∈ d.attributes, AttributeView.Alike a b

end Meaning

section Views

/-- What `AttrIntr::operator==` sees. -/
def AttrIntr.seen (a : AttrIntr) : AttrIntr × Nat := ({ a with enumLabels := [] },a.enumLabels.length)

theorem cmdIntr_eq_iff (c rhs : CmdIntr) : c.eq rhs = true ↔ c = rhs := by
  obtain ⟨n,i,o⟩ := c
  obtain ⟨n',i',o'⟩ := rhs
  simp only [CmdIntr.eq,CmdIntr.mk.injEq,ne_eq,ite_not]
  grind

theorem attrIntr_eq_iff (a rhs : AttrIntr) : a.eq rhs = true ↔ a.seen = rhs.seen := by
  obtain ⟨n,w,t,f,x,y,m,mi,an,el⟩ := a
  obtain ⟨n',w',t',f',x',y',m',mi',an',el'⟩ := rhs
  simp only [AttrIntr.eq,AttrIntr.seen,AttrIntr.mk.injEq,Prod.mk.injEq,ne_eq,ite_not]
  grind

theorem alike_iff (a b : Attribute) :
    (attributeView a).Alike (attributeView b) ↔ (attrIntr a).seen = (attrIntr b).seen := by
  simp only [AttrIntr.seen,attrIntr,Prod.mk.injEq,AttrIntr.mk.injEq]
  constructor
  · rintro ⟨h1,h2,h3,h4,h5,h6,h7,h8,h9,h10⟩
    refine ⟨⟨h1,h2,h3,h4,h5,h6,h7,h8,?_,trivial⟩,h10⟩
    rw [show b.writable = a.writable from h2.symm]
    split
    · rename_i hw
      exact h9 hw
    · rfl
  · rintro ⟨⟨h1,h2,h3,h4,h5,h6,h7,h8,h9,-⟩,h10⟩
    refine ⟨h1,h2,h3,h4,h5,h6,h7,h8,fun hw => ?_,h10⟩
    have hw' : writes a.writable = true := hw
    rw [← h2,if_pos hw',if_pos hw'] at h9
    exact h9

theorem seen_name (a : AttrIntr) : a.seen.1.name = a.name := rfl

end Views

section Comparison
variable (d e : DeviceImpl)

/-- The commands as they are listed, before they are sorted. -/
def listedCommands : List CmdIntr := d.commandList.map cmdIntr ++ d.localCommandList.map cmdIntr

theorem listedCommands_eq : listedCommands d = (d.commandList ++ d.localCommandList).map cmdIntr :=
  List.map_append.symm

theorem listedCommands_nodup : ((listedCommands d).map (·.name)).Nodup := by
  rw [listedCommands_eq,List.map_map]
  exact d.commandsDiffer

theorem listedAttributes_nodup : ((d.attributeList.map attrIntr).map (·.name)).Nodup := by
  rw [List.map_map]
  exact d.attributesDiffer

def CommandView.intr (v : CommandView) : CmdIntr := ⟨v.name,v.inType,v.outType⟩

theorem CommandView.intr_inj {v w : CommandView} (h : v.intr = w.intr) : v = w := by
  cases v
  cases w
  cases h
  rfl

theorem mem_listedCommands {v : CommandView} : v.intr ∈ listedCommands d ↔ v ∈ d.commands := by
  rw [listedCommands_eq,List.mem_map]
  constructor
  · rintro ⟨c,hc,he⟩
    exact ⟨c,hc,CommandView.intr_inj he⟩
  · rintro ⟨c,hc,rfl⟩
    exact ⟨c,hc,rfl⟩

/-- The command lists compare equal when the sets do. -/
theorem commands_same_iff :
    (buildCmdInterfaces e).isEqv (buildCmdInterfaces d) CmdIntr.eq = true ↔ d.commands = e.commands := by
  rw [isEqv_iff id cmdIntr_eq_iff]
  have hs := map_sortBy_eq_iff id CmdIntr.name (fun _ => rfl) (listedCommands_nodup e)
    (listedCommands_nodup d)
  refine hs.trans ?_
  rw [List.map_id,List.map_id]
  constructor
  · intro h
    ext v
    rw [← mem_listedCommands,← mem_listedCommands,h]
  · intro h x
    have hv : x = CommandView.intr ⟨x.name,x.inType,x.outType⟩ := rfl
    rw [hv,mem_listedCommands,mem_listedCommands,h]

/-- The attribute lists compare equal when each attribute has one that is alike on the other side. -/
theorem attributes_same_iff : (buildAttInterfaces e).isEqv (buildAttInterfaces d) AttrIntr.eq = true ↔
    (∀ a ∈ d.attributes, ∃ b ∈ e.attributes, AttributeView.Alike a b) ∧
      (∀ b ∈ e.attributes, ∃ a ∈ d.attributes, AttributeView.Alike a b) := by
  rw [isEqv_iff AttrIntr.seen attrIntr_eq_iff]
  have hs := map_sortBy_eq_iff AttrIntr.seen (fun v => v.1.name) seen_name
    (listedAttributes_nodup e) (listedAttributes_nodup d)
  refine hs.trans ?_
  simp only [List.map_map,List.mem_map,Function.comp_apply]
  constructor
  · intro h
    constructor
    · rintro _ ⟨a,ha,rfl⟩
      obtain ⟨b,hb,he⟩ := (h _).mpr ⟨a,ha,rfl⟩
      exact ⟨_,⟨b,hb,rfl⟩,(alike_iff a b).mpr he.symm⟩
    · rintro _ ⟨b,hb,rfl⟩
      obtain ⟨a,ha,he⟩ := (h _).mp ⟨b,hb,rfl⟩
      exact ⟨_,⟨a,ha,rfl⟩,(alike_iff a b).mpr he⟩
  · rintro ⟨hthere,hback⟩ x
    constructor
    · rintro ⟨b,hb,rfl⟩
      obtain ⟨_,⟨a,ha,rfl⟩,hab⟩ := hback _ ⟨b,hb,rfl⟩
      exact ⟨a,ha,(alike_iff a b).mp hab⟩
    · rintro ⟨a,ha,rfl⟩
      obtain ⟨_,⟨b,hb,rfl⟩,hab⟩ := hthere _ ⟨a,ha,rfl⟩
      exact ⟨b,hb,((alike_iff a b).mp hab).symm⟩

theorem hasChanged_iff : (getInterface d).hasChanged e = false ↔ d.commands = e.commands ∧
    (∀ a ∈ d.attributes, ∃ b ∈ e.attributes, AttributeView.Alike a b) ∧
      (∀ b ∈ e.attributes, ∃ a ∈ d.attributes, AttributeView.Alike a b) := by
  rw [← commands_same_iff,← attributes_same_iff]
  unfold DevIntr.hasChanged getInterface
  split
  · rename_i h
    exact iff_of_false (by decide) fun hc => h hc.1
  · rename_i h
    rw [not_not] at h
    split
    · rename_i ha
      exact iff_of_false (by decide) fun hc => ha hc.2
    · rename_i ha
      exact iff_of_true rfl ⟨h,not_not.mp ha⟩

theorem AttributeView.alike_refl (a : AttributeView) : a.Alike a :=
  ⟨rfl,rfl,rfl,rfl,rfl,rfl,rfl,rfl,fun _ => rfl,rfl⟩

/-- A change of the interface is detected exactly, unless only label texts or associated attributes that are not looked
at are different. -/
theorem change_detected_iff : ((getInterface d).hasChanged e = true ↔ Differ d e) ↔ ¬ OnlyUnseen d e := by
  rw [← Bool.not_eq_false,hasChanged_iff]
  constructor
  · rintro h ⟨hc,hd,ht,hb⟩
    exact h.mpr (.inr hd) ⟨hc,ht,hb⟩
  · intro h
    constructor
    · intro hn
      by_contra hs
      rw [Differ,not_or,not_not,not_not] at hs
      refine hn ⟨hs.1,fun a ha => ⟨a,hs.2 ▸ ha,a.alike_refl⟩,fun b hb => ⟨b,hs.2.symm ▸ hb,b.alike_refl⟩⟩
    · rintro hd ⟨hc,ht,hb⟩
      exact h ⟨hc,hd.resolve_left (not_not_intro hc),ht,hb⟩

end Comparison

section Examples

/-- An attribute with two labels. -/
def door (labels : List String) : DeviceImpl where
  commandList := [⟨"State",.devVoid,.devState⟩]
  localCommandList := []
  attributeList := [⟨"Door",.read,.devEnum,.scalar,1,0,"None",labels,none,rfl⟩]
  commandsDiffer := by decide
  attributesDiffer := List.nodup_singleton _

/-- Labels that are renamed are not noticed. -/
theorem renamed_label_unnoticed :
    (getInterface (door ["open","closed"])).hasChanged (door ["open","shut"]) = false ∧
      Differ (door ["open","closed"]) (door ["open","shut"]) := by
  refine ⟨by decide,.inr fun h => ?_⟩
  have hm : attributeView ⟨"Door",.read,.devEnum,.scalar,1,0,"None",["open","closed"],none,rfl⟩ ∈
      (door ["open","closed"]).attributes := ⟨_,List.mem_singleton_self _,rfl⟩
  rw [h] at hm
  obtain ⟨a,ha,he⟩ := hm
  rw [List.mem_singleton.mp ha] at he
  have := congrArg AttributeView.enumLabels he
  exact absurd this (by decide)

end Examples

end CppTango.Device.Interface
