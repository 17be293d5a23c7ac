import CppTango.Db.Cache
import CppTango.Lib.Lists

namespace CppTango.Db

open CppTango.Lib CppTango.Device

section Counts

theorem atoi_numText {n : Nat} (h : n < 2 ^ 31) : atoi (numText n) = n := by
  unfold atoi
  rw [toList_numText,readSigned_intText 32 n (by omega)]
  rfl

theorem atoiNat_numText {n : Nat} (h : n < 2 ^ 31) : atoiNat (numText n) = n := by
  unfold atoiNat
  rw [atoi_numText h]
  exact Int.toNat_natCast n

theorem length_strings (d : DbDatum) : d.strings.length = d.valueString.length + 2 := rfl

theorem length_le_flatMap {α β : Type} {f : α → List β} (h : ∀ x, 0 < (f x).length) (l : List α) :
    l.length ≤ (l.flatMap f).length := by
  induction l with
  | nil => exact Nat.zero_le _
  | cons x l ih =>
    have := h x
    rw [List.flatMap_cons,List.length_append,List.length_cons]
    omega

theorem length_le_props (ds : DbData) : ds.length ≤ (ds.flatMap DbDatum.strings).length := by
  apply length_le_flatMap
  intro d
  exact Nat.succ_pos _

theorem length_le_atts (atts : List AttrBlock) :
    atts.length ≤ (atts.flatMap AttrBlock.strings).length := by
  apply length_le_flatMap
  intro b
  exact Nat.succ_pos _

end Counts

section Blocks
variable {list : List String} (hlen : list.length < 2 ^ 31)

/-- The indexes of a property: where its strings are and how many values it has. -/
def PropAt (list : List String) (x : Nat × Nat) (d : DbDatum) : Prop :=
  Placed list x.1 d.strings ∧ x.2 = d.valueString.length

/-- The indexes of a part of the array with properties. -/
structure PropEltIdx.Holds (list : List String) (obj : PropEltIdx) (b : AttrBlock) : Prop where
  first : list[obj.firstIdx]? = some b.name
  props : List.Forall₂ (PropAt list) obj.propsIdx b.props

/-- The indexes of a part of the array with attributes or pipes. -/
def AttPropEltIdx.Holds (list : List String) (obj : AttPropEltIdx) (atts : List AttrBlock) : Prop :=
  List.Forall₂ (fun i (b : AttrBlock) => Placed list i b.strings) obj.attsIdx atts

include hlen

theorem atoiNat_of_placed {i n : Nat} {name : String} {rest : List String}
    (h : Placed list i (name :: numText n :: rest)) (hn : n ≤ rest.length) :
    ∃ s, list[i + 1]? = some s ∧ atoiNat s = n := by
  have hroom := h.room
  simp only [List.length_cons] at hroom
  exact ⟨numText n,h.tail.head,atoiNat_numText (by omega)⟩

theorem propLoop_placed (ds : DbData) (stop : Nat)
    (h : Placed list (stop + 1) (ds.flatMap DbDatum.strings)) :
    ∃ idx, propLoop list ds.length stop = some (idx,stop + (ds.flatMap DbDatum.strings).length) ∧
      List.Forall₂ (PropAt list) idx ds := by
  induction ds generalizing stop with
  | nil => exact ⟨[],rfl,List.Forall₂.nil⟩
  | cons d ds ih =>
    rw [List.flatMap_cons] at h
    obtain ⟨s,hs,hcount⟩ := atoiNat_of_placed hlen h.left le_rfl
    have hnext := h.right
    rw [length_strings,show stop + 1 + (d.valueString.length + 2) =
      stop + d.valueString.length + 2 + 1 by omega] at hnext
    obtain ⟨idx,hidx,hrel⟩ := ih _ hnext
    refine ⟨(stop + 1,d.valueString.length) :: idx,?_,List.Forall₂.cons ⟨h.left,rfl⟩ hrel⟩
    rw [List.length_cons,propLoop,hs]
    simp only
    rw [hcount,hidx,List.flatMap_cons,List.length_append,length_strings]
    simp only [Option.map_some,Option.some.injEq,Prod.mk.injEq,true_and]
    omega

/-- `prop_indexes` finds the properties of a block and leaves its index on the last string. -/
theorem propIndexes_placed (b : AttrBlock) (stop : Nat) (h : Placed list (stop + 1) b.strings) :
    ∃ obj, propIndexes list stop = some obj ∧ obj.Holds list b ∧
      obj.lastIdx = stop + b.strings.length := by
  obtain ⟨s,hs,hcount⟩ := atoiNat_of_placed hlen h (length_le_props b.props)
  have hname := h.head
  have hprops : Placed list (stop + 2 + 1) (b.props.flatMap DbDatum.strings) := h.tail.tail
  have hspan : b.strings.length = (b.props.flatMap DbDatum.strings).length + 2 := rfl
  unfold propIndexes
  simp only
  rw [hs]
  simp only
  rw [hcount]
  split
  · rename_i hz
    have hnil : b.props = [] := List.eq_nil_of_length_eq_zero hz
    refine ⟨_,rfl,⟨hname,?_⟩,?_⟩
    · rw [hnil]
      exact List.Forall₂.nil
    · rw [hspan,hnil]
      rfl
  · obtain ⟨idx,hidx,hrel⟩ := propLoop_placed hlen b.props (stop + 2) hprops
    rw [hidx]
    refine ⟨_,rfl,⟨hname,hrel⟩,?_⟩
    simp only
    omega

theorem attPropLoop_placed (ds : DbData) (stop : Nat)
    (h : Placed list stop (ds.flatMap DbDatum.strings)) :
    attPropLoop list ds.length stop = some (stop + (ds.flatMap DbDatum.strings).length) := by
  induction ds generalizing stop with
  | nil => rfl
  | cons d ds ih =>
    rw [List.flatMap_cons] at h
    obtain ⟨s,hs,hcount⟩ := atoiNat_of_placed hlen h.left le_rfl
    have hnext := h.right
    rw [length_strings,← Nat.add_assoc] at hnext
    rw [List.length_cons,attPropLoop,hs]
    simp only
    rw [hcount,ih _ hnext,List.flatMap_cons,List.length_append,length_strings]
    simp only [Option.some.injEq]
    omega

/-- The loop over attributes: the index is behind the last string of each attribute and is moved
back on it at the end. -/
theorem attLoop_placed (b : AttrBlock) (atts : List AttrBlock) (stop : Nat)
    (h : Placed list stop ((b :: atts).flatMap AttrBlock.strings)) :
    ∃ idx, attLoop list (b :: atts).length stop =
        some (idx,stop + ((b :: atts).flatMap AttrBlock.strings).length - 1) ∧
      List.Forall₂ (fun i (b : AttrBlock) => Placed list i b.strings) idx (b :: atts) := by
  induction atts generalizing b stop with
  | nil =>
    rw [List.flatMap_cons] at h
    obtain ⟨s,hs,hcount⟩ := atoiNat_of_placed hlen h.left (length_le_props b.props)
    have hin := attPropLoop_placed hlen b.props (stop + 2) h.left.tail.tail
    refine ⟨[stop],?_,List.Forall₂.cons h.left List.Forall₂.nil⟩
    rw [List.length_singleton,attLoop,hs]
    simp only
    rw [hcount,hin,List.flatMap_singleton]
    simp only [↓reduceIte,attLoop,Option.map_some,Option.some.injEq,Prod.mk.injEq,true_and,
      AttrBlock.strings,List.length_cons]
    omega
  | cons b' atts ih =>
    rw [List.flatMap_cons] at h
    obtain ⟨s,hs,hcount⟩ := atoiNat_of_placed hlen h.left (length_le_props b.props)
    have hin := attPropLoop_placed hlen b.props (stop + 2) h.left.tail.tail
    have hspan : b.strings.length = (b.props.flatMap DbDatum.strings).length + 2 := rfl
    have hnext := h.right
    rw [show stop + b.strings.length = stop + 2 + (b.props.flatMap DbDatum.strings).length by omega]
      at hnext
    obtain ⟨idx,hidx,hrel⟩ := ih b' _ hnext
    refine ⟨stop :: idx,?_,List.Forall₂.cons h.left hrel⟩
    rw [List.length_cons,attLoop,hs]
    simp only
    rw [hcount,hin]
    simp only
    rw [if_neg (by simp),hidx]
    simp only [Option.map_some,Option.some.injEq,Prod.mk.injEq,true_and,List.flatMap_cons,
      List.length_append]
    omega

/-- The strings of the attributes, or of the pipes, of a class or of a device. -/
def attBlock (name : String) (atts : List AttrBlock) : List String :=
  name :: numText atts.length :: atts.flatMap AttrBlock.strings

theorem propAttIndexes_placed (name : String) (atts : List AttrBlock) (stop : Nat)
    (h : Placed list (stop + 1) (attBlock name atts)) :
    ∃ obj, propAttIndexes list stop = some obj ∧ obj.Holds list atts ∧
      obj.lastIdx = stop + (attBlock name atts).length := by
  obtain ⟨s,hs,hcount⟩ := atoiNat_of_placed hlen h (length_le_atts atts)
  have hatts : Placed list (stop + 1 + 2) (atts.flatMap AttrBlock.strings) := h.tail.tail
  unfold propAttIndexes
  simp only
  rw [hs]
  simp only
  rw [hcount]
  cases atts with
  | nil => exact ⟨_,rfl,List.Forall₂.nil,rfl⟩
  | cons b atts =>
    obtain ⟨idx,hidx,hrel⟩ := attLoop_placed hlen b atts _ hatts
    rw [if_neg (by simp),hidx]
    refine ⟨_,rfl,hrel,?_⟩
    simp only [attBlock,List.length_cons]
    omega

end Blocks

section Classes

/-- A device of the configuration. -/
structure DevConf where
  name : String
  props : DbData
  atts : List AttrBlock
  pipes : List AttrBlock
deriving DecidableEq, Repr

/-- A class of the configuration with its devices. -/
structure ClassConf where
  name : String
  props : DbData
  atts : List AttrBlock
  pipes : List AttrBlock
  devs : List DevConf
deriving DecidableEq, Repr

/-- The strings of the pipes, for a stored procedure that sends them. -/
def pipeBlock (withPipes : Bool) (name : String) (pipes : List AttrBlock) : List String :=
  if withPipes then attBlock name pipes else []

def DevConf.strings (withPipes : Bool) (d : DevConf) : List String :=
  AttrBlock.strings ⟨d.name,d.props⟩ ++ (attBlock d.name d.atts ++ pipeBlock withPipes d.name d.pipes)

/-- The number of the devices and their names. -/
def devNames (cl : ClassConf) : List String :=
  cl.name :: numText cl.devs.length :: cl.devs.map DevConf.name

def ClassConf.strings (withPipes : Bool) (cl : ClassConf) : List String :=
  AttrBlock.strings ⟨cl.name,cl.props⟩ ++ (attBlock cl.name cl.atts ++
    (pipeBlock withPipes cl.name cl.pipes ++ (devNames cl ++ cl.devs.flatMap (DevConf.strings withPipes))))

/-- The indexes of the pipes, when there are pipes. -/
def PipesHold (list : List String) (withPipes : Bool) (obj : Option AttPropEltIdx)
    (pipes : List AttrBlock) : Prop :=
  if withPipes then ∃ x, obj = some x ∧ x.Holds list pipes else obj = none

/-- The indexes of a device. -/
structure DevEltIdx.Holds (list : List String) (withPipes : Bool) (x : DevEltIdx) (d : DevConf) : Prop where
  props : x.devProp.Holds list ⟨d.name,d.props⟩
  atts : x.devAttProp.Holds list d.atts
  pipes : PipesHold list withPipes x.devPipeProp d.pipes

/-- The indexes of a class. -/
structure ClassEltIdx.Holds (list : List String) (withPipes : Bool) (x : ClassEltIdx) (cl : ClassConf) :
    Prop where
  props : x.classProp.Holds list ⟨cl.name,cl.props⟩
  atts : x.classAttProp.Holds list cl.atts
  pipes : PipesHold list withPipes x.classPipeProp cl.pipes
  devList : Placed list (x.devList.firstIdx + 2) (cl.devs.map DevConf.name)
  devNb : x.devNb = cl.devs.length
  devs : List.Forall₂ (DevEltIdx.Holds list withPipes) x.devsIdx cl.devs

variable {list : List String} {rel : Int} {withPipes : Bool}

/-- The part behind another one. -/
theorem placed_next {stop last : Nat} {xs ys : List String} (h : Placed list (stop + 1) (xs ++ ys))
    (hl : last = stop + xs.length) : Placed list (last + 1) ys := by
  have := h.right
  rwa [hl,Nat.add_right_comm]

variable (hlen : list.length < 2 ^ 31) (hrel : 109 ≤ rel ↔ withPipes = true)
include hlen hrel

theorem pipeIndexes_placed (name : String) (pipes : List AttrBlock) (stop : Nat)
    (h : Placed list (stop + 1) (pipeBlock withPipes name pipes)) :
    ∃ obj, pipeIndexes list rel stop = some (obj,stop + (pipeBlock withPipes name pipes).length) ∧
      PipesHold list withPipes obj pipes := by
  unfold pipeIndexes PipesHold
  cases withPipes with
  | false =>
    rw [if_neg (fun hr => Bool.false_ne_true (hrel.mp hr))]
    exact ⟨none,rfl,rfl⟩
  | true =>
    rw [if_pos (hrel.mpr rfl)]
    obtain ⟨obj,ho,hh,hl⟩ := propAttIndexes_placed hlen name pipes stop h
    refine ⟨some obj,?_,obj,rfl,hh⟩
    rw [ho,Option.map_some,hl]
    rfl

theorem devLoop_placed (devs : List DevConf) (stop : Nat)
    (h : Placed list (stop + 1) (devs.flatMap (DevConf.strings withPipes))) :
    ∃ idx, devLoop list rel devs.length stop =
        some (idx,stop + (devs.flatMap (DevConf.strings withPipes)).length) ∧
      List.Forall₂ (DevEltIdx.Holds list withPipes) idx devs := by
  induction devs generalizing stop with
  | nil => exact ⟨[],rfl,List.Forall₂.nil⟩
  | cons d devs ih =>
    rw [List.flatMap_cons,DevConf.strings,List.append_assoc,List.append_assoc] at h
    obtain ⟨objP,hp,hpHolds,hpLast⟩ := propIndexes_placed hlen _ stop h.left
    have h2 := placed_next h hpLast
    obtain ⟨objA,ha,haHolds,haLast⟩ := propAttIndexes_placed hlen _ _ _ h2.left
    have h3 := placed_next h2 haLast
    obtain ⟨objPipe,hpipe,hpipeHolds⟩ := pipeIndexes_placed hlen hrel _ _ _ h3.left
    have h4 := placed_next h3 rfl
    obtain ⟨idx,hidx,hidxHolds⟩ := ih _ h4
    refine ⟨⟨objP,objA,objPipe⟩ :: idx,?_,List.Forall₂.cons ⟨hpHolds,haHolds,hpipeHolds⟩ hidxHolds⟩
    rw [List.length_cons,devLoop,hp]
    simp only [bind,Option.bind_some,pure]
    rw [ha,Option.bind_some,hpipe,Option.bind_some,hidx,Option.bind_some,List.flatMap_cons,
      DevConf.strings]
    simp only [List.length_append,Option.some.injEq,Prod.mk.injEq,true_and]
    omega

theorem classLoop_placed (classes : List ClassConf) (stop : Nat)
    (h : Placed list (stop + 1) (classes.flatMap (ClassConf.strings withPipes))) :
    ∃ idx, classLoop list rel classes.length stop =
        some (idx,stop + (classes.flatMap (ClassConf.strings withPipes)).length) ∧
      List.Forall₂ (ClassEltIdx.Holds list withPipes) idx classes := by
  induction classes generalizing stop with
  | nil => exact ⟨[],rfl,List.Forall₂.nil⟩
  | cons cl classes ih =>
    rw [List.flatMap_cons,ClassConf.strings] at h
    simp only [List.append_assoc] at h
    obtain ⟨objP,hp,hpHolds,hpLast⟩ := propIndexes_placed hlen _ stop h.left
    have h2 := placed_next h hpLast
    obtain ⟨objA,ha,haHolds,haLast⟩ := propAttIndexes_placed hlen _ _ _ h2.left
    have h3 := placed_next h2 haLast
    obtain ⟨objPipe,hpipe,hpipeHolds⟩ := pipeIndexes_placed hlen hrel _ _ _ h3.left
    have h4 := placed_next h3 rfl
    obtain ⟨s,hs,hcount⟩ := atoiNat_of_placed hlen h4.left (List.length_map _).ge
    have h5 := placed_next h4 rfl
    obtain ⟨devs,hdevs,hdevsHold⟩ := devLoop_placed hlen hrel cl.devs _ h5.left
    have h6 := placed_next h5 rfl
    obtain ⟨idx,hidx,hidxHolds⟩ := ih _ h6
    generalize hstop : objA.lastIdx + (pipeBlock withPipes cl.name cl.pipes).length = last at *
    have hspan : last + cl.devs.length + 2 = last + (devNames cl).length := by
      simp only [devNames,List.length_cons,List.length_map]
      omega
    refine ⟨⟨objP,objA,objPipe,⟨last + 1,last + cl.devs.length + 2⟩,cl.devs.length,devs⟩ :: idx,?_,
      List.Forall₂.cons ⟨hpHolds,haHolds,hpipeHolds,h4.left.tail.tail,rfl,hdevsHold⟩ hidxHolds⟩
    rw [List.length_cons,classLoop,hp]
    simp only [bind,Option.bind_some,pure]
    rw [ha,Option.bind_some,hpipe,Option.bind_some,hs]
    simp only [Option.map_some,Option.bind_some]
    rw [hcount,hspan,hdevs,Option.bind_some,hidx,Option.bind_some,List.flatMap_cons,ClassConf.strings]
    simp only [List.length_append,Option.some.injEq,Prod.mk.injEq,true_and]
    omega

end Classes

end CppTango.Db
