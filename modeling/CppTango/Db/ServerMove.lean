import CppTango.Db.ServerData
import Mathlib.Data.List.Dedup

namespace CppTango.Db.ServerData

section Claim

/-- The objects of one kind have all their properties, and nothing else is in the table. -/
def Copied {κ : Type} [DecidableEq κ] (source target : Table κ) (owned : String → Prop) : Prop :=
  ∀ o k, (owned o → target.lookup (o,k) = source.lookup (o,k)) ∧
    (¬ owned o → target.lookup (o,k) = none)

structure CopiedAll (source target : Tables) (owned : String → Prop) : Prop where
  props : Copied source.props target.props owned
  atts : Copied source.atts target.atts owned
  pipes : Copied source.pipes target.pipes owned

def serverClasses (db : Database) (server : String) : List String :=
  "DServer" :: getServerClassList db server

def ServerDevice (db : Database) (server dev : String) : Prop :=
  ∃ r ∈ db.devices, r.server = server ∧ r.name = dev

/-- The database has the server with all its data, and nothing else. -/
structure Moved (db : Database) (server : String) (moved : Database) : Prop where
  devices : ∀ r, r ∈ moved.devices ↔ r ∈ db.devices ∧ r.server = server
  classes : CopiedAll db.classes moved.classes (· ∈ serverClasses db server)
  devs : CopiedAll db.devs moved.devs (ServerDevice db server)

/-- No class of the server has properties of attributes or pipes. -/
def Bare (db : Database) (server : String) : Prop :=
  ∀ c ∈ serverClasses db server, getClassAttributeList db c = [] ∧ getClassPipeList db c = []

instance (db : Database) (server : String) : Decidable (Bare db server) :=
  List.decidableBAll _ _

end Claim

section Tables
variable {κ : Type} [DecidableEq κ]

theorem mem_keysOf {t : Table κ} {o : String} {k : κ} :
    k ∈ t.keysOf o ↔ t.lookup (o,k) ≠ none := by
  unfold Table.keysOf
  rw [List.mem_map,ne_eq,AList.lookup_eq_none,not_not,AList.mem_keys]
  constructor
  · rintro ⟨⟨o',k'⟩,hm,rfl⟩
    obtain ⟨hk,ho⟩ := List.mem_filter.mp hm
    have ho : o' = o := of_decide_eq_true ho
    rw [← ho]
    exact hk
  · intro hm
    exact ⟨(o,k),List.mem_filter.mpr ⟨hm,decide_eq_true rfl⟩,rfl⟩

theorem valuesOf_ne {t : Table κ} {o : String} {k : κ} (h : k ∈ t.keysOf o) :
    t.valuesOf o k ≠ [] := by
  obtain ⟨v,hv⟩ := Option.ne_none_iff_exists'.mp (mem_keysOf.mp h)
  unfold Table.valuesOf
  rw [hv]
  exact v.2

theorem lookup_put {s t : Table κ} {o o' : String} {k k' : κ} (h : k ∈ s.keysOf o) :
    (t.put o k (s.valuesOf o k)).lookup (o',k') =
      if o' = o ∧ k' = k then s.lookup (o,k) else t.lookup (o',k') := by
  obtain ⟨v,hv⟩ := Option.ne_none_iff_exists'.mp (mem_keysOf.mp h)
  have hval : s.valuesOf o k = v.1 := by
    unfold Table.valuesOf
    rw [hv]
    rfl
  unfold Table.put
  rw [dif_pos (valuesOf_ne h)]
  by_cases he : o' = o ∧ k' = k
  · obtain ⟨rfl,rfl⟩ := he
    rw [if_pos ⟨rfl,rfl⟩,AList.lookup_insert,hv]
    exact congrArg some (Subtype.ext hval)
  · rw [if_neg he]
    apply AList.lookup_insert_ne
    intro hk
    exact he (Prod.mk.inj hk)

/-- Properties are put one after the other. -/
def puts (s : Table κ) (o : String) (ks : List κ) (t : Table κ) : Table κ :=
  ks.foldl (fun t k => t.put o k (s.valuesOf o k)) t

theorem lookup_puts {s : Table κ} {o : String} {ks : List κ} (h : ∀ k ∈ ks, k ∈ s.keysOf o)
    (t : Table κ) (o' : String) (k' : κ) :
    (puts s o ks t).lookup (o',k') =
      if o' = o ∧ k' ∈ ks then s.lookup (o,k') else t.lookup (o',k') := by
  induction ks generalizing t with
  | nil => simp [puts]
  | cons k ks ih =>
    change (puts s o ks (t.put o k (s.valuesOf o k))).lookup (o',k') = _
    rw [ih (fun x hx => h x (List.mem_cons_of_mem k hx)),lookup_put (h k List.mem_cons_self)]
    by_cases ho : o' = o
    · by_cases hk : k' = k
      · subst hk
        simp [ho]
      · simp [ho,hk]
    · simp [ho]

/-- An object gets all its properties. -/
theorem copied_puts {s t : Table κ} {owned : String → Prop} {o : String} {ks : List κ}
    (h : Copied s t owned) (hks : ∀ k, k ∈ ks ↔ k ∈ s.keysOf o) :
    Copied s (puts s o ks t) (fun x => x = o ∨ owned x) := by
  intro o' k
  rw [lookup_puts (fun k hk => (hks k).mp hk)]
  by_cases ho : o' = o
  · subst ho
    refine ⟨fun _ => ?_,fun hn => absurd (.inl rfl) hn⟩
    by_cases hk : k ∈ ks
    · rw [if_pos ⟨rfl,hk⟩]
    · have hnone : s.lookup (o',k) = none := by
        by_contra hn
        exact hk ((hks k).mpr (mem_keysOf.mpr hn))
      rw [if_neg (fun hc => hk hc.2)]
      by_cases hown : owned o'
      · exact (h o' k).1 hown
      · rw [(h o' k).2 hown,hnone]
  · rw [if_neg (fun hc => ho hc.1)]
    constructor
    · rintro (hc | hown)
      · exact absurd hc ho
      · exact (h o' k).1 hown
    · intro hn
      exact (h o' k).2 (fun hown => hn (.inr hown))

theorem copied_empty (s : Table κ) : Copied s ∅ (fun _ => False) :=
  fun _ _ => ⟨fun hf => hf.elim,fun _ => rfl⟩

end Tables

section Devices
variable {db : Database}

theorem putProps_eq (s t : Table String) (o : String) (names : List String) :
    putProps t o (getProps s o names) = puts s o names t := by
  unfold putProps getProps puts
  rw [List.foldl_map]

theorem device_properties (na : String) :
    (tangoDevice db na).properties = getProps db.devs.props na (db.devs.props.keysOf na) := by
  unfold tangoDevice getDeviceProperty getDevicePropertyList getProps
  dsimp only
  have hvals : ∀ p ∈ db.devs.props.keysOf na, db.devs.props.valuesOf na p ≠ [] :=
    fun p hp => valuesOf_ne hp
  generalize db.devs.props.keysOf na = names at hvals
  induction names with
  | nil => rfl
  | cons p names ih =>
    have hp := hvals p List.mem_cons_self
    rw [List.map_cons,List.zip_cons_cons,List.filterMap_cons]
    simp only [ne_eq,hp,not_false_eq_true,if_true]
    rw [ih (fun x hx => hvals x (List.mem_cons_of_mem p hx))]

/-- The keys of an object, item by item. -/
def itemKeys (s : Table (String × String)) (o : String) : List (String × String) :=
  (itemList s o).flatMap (fun i => (s.keysOf o).filter (fun k => k.1 = i))

theorem mem_itemKeys {s : Table (String × String)} {o : String} {k : String × String} :
    k ∈ itemKeys s o ↔ k ∈ s.keysOf o := by
  unfold itemKeys itemList
  rw [List.mem_flatMap]
  constructor
  · rintro ⟨i,-,hk⟩
    exact (List.mem_filter.mp hk).1
  · intro hk
    refine ⟨k.1,?_,List.mem_filter.mpr ⟨hk,decide_eq_true rfl⟩⟩
    rw [List.mem_dedup]
    exact List.mem_map_of_mem hk

def keyBlock (s : Table (String × String)) (o : String) (k : String × String) : AttrBlock :=
  ⟨k.1,[⟨k.2,s.valuesOf o k⟩]⟩

/-- What is kept of the attributes or the pipes of a device. -/
theorem entries_eq (s : Table (String × String)) (o : String) :
    (itemList s o).flatMap (fun i => entries i ((getItems s o [i]).drop 1)) =
      (itemKeys s o).map (keyBlock s o) := by
  unfold itemKeys
  rw [List.map_flatMap]
  apply List.flatMap_congr
  intro i _
  have hget : (getItems s o [i]).drop 1 = itemProps s o i := by
    unfold getItems
    rw [List.flatMap_cons,List.flatMap_nil,List.append_nil]
    rfl
  have hvals : (itemProps s o i).filter (fun d => d.valueString ≠ []) = itemProps s o i := by
    apply List.filter_eq_self.mpr
    intro d hd
    obtain ⟨k,hk,rfl⟩ := List.mem_map.mp hd
    exact decide_eq_true (valuesOf_ne (List.mem_filter.mp hk).1)
  unfold entries
  rw [hget,hvals]
  unfold itemProps
  rw [List.map_map]
  apply List.map_congr_left
  intro k hk
  have hi : k.1 = i := of_decide_eq_true (List.mem_filter.mp hk).2
  unfold keyBlock
  rw [hi]
  rfl

theorem short_one (name : String) : DbDatum.short ⟨name,[numText 1]⟩ = some 1 := by
  rfl

theorem putItems_eq (s t : Table (String × String)) (o : String) (ks : List (String × String))
    (fuel : Nat) (hf : ks.length ≤ fuel) :
    putItems o fuel t ((ks.map (keyBlock s o)).flatMap AttrBlock.data) = some (puts s o ks t) := by
  induction ks generalizing t fuel with
  | nil => rw [List.map_nil,List.flatMap_nil,putItems]; rfl
  | cons k ks ih =>
    cases fuel with
    | zero => simp at hf
    | succ fuel =>
      rw [List.map_cons,List.flatMap_cons]
      change putItems o (fuel + 1) t (⟨k.1,[numText 1]⟩ :: ⟨k.2,s.valuesOf o k⟩ :: _) = _
      rw [putItems,short_one]
      dsimp only
      rw [if_pos (by simp)]
      exact ih _ fuel (by simpa using hf)

theorem putBlocks_eq (s t : Table (String × String)) (o : String) (ks : List (String × String)) :
    putBlocks t o (ks.map (keyBlock s o)) = some (puts s o ks t) := by
  have hfilter : (ks.map (keyBlock s o)).filter (fun b => b.props ≠ []) = ks.map (keyBlock s o) := by
    apply List.filter_eq_self.mpr
    intro b hb
    obtain ⟨k,-,rfl⟩ := List.mem_map.mp hb
    rfl
  unfold putBlocks
  split
  next hnil =>
    cases List.map_eq_nil_iff.mp hnil
    rfl
  next =>
    rw [hfilter]
    apply putItems_eq
    have hlen : ∀ l : List (String × String),
        l.length ≤ ((l.map (keyBlock s o)).flatMap AttrBlock.data).length := by
      intro l
      induction l with
      | nil => exact Nat.le_refl 0
      | cons k l ih =>
        rw [List.map_cons,List.flatMap_cons,List.length_append,List.length_cons]
        change l.length + 1 ≤ 2 + _
        omega
    exact hlen ks

theorem put_device {t : Tables} {owned : String → Prop} (h : CopiedAll db.devs t owned)
    (na : String) : ∃ t', (tangoDevice db na).put t = some t' ∧
      CopiedAll db.devs t' (fun x => x = na ∨ owned x) := by
  have hatts : (tangoDevice db na).attributes =
      (itemKeys db.devs.atts na).map (keyBlock db.devs.atts na) := entries_eq db.devs.atts na
  have hpipes : (tangoDevice db na).pipes =
      (itemKeys db.devs.pipes na).map (keyBlock db.devs.pipes na) := entries_eq db.devs.pipes na
  have hprops : (if (tangoDevice db na).properties = [] then t.props
      else putProps t.props na (tangoDevice db na).properties) =
      puts db.devs.props na (db.devs.props.keysOf na) t.props := by
    rw [← putProps_eq,device_properties]
    split
    next hnil => rw [hnil]; rfl
    next => rfl
  refine ⟨⟨puts db.devs.props na (db.devs.props.keysOf na) t.props,
    puts db.devs.atts na (itemKeys db.devs.atts na) t.atts,
    puts db.devs.pipes na (itemKeys db.devs.pipes na) t.pipes⟩,?_,?_⟩
  · unfold TangoObject.put
    rw [hatts,hpipes]
    change (putBlocks t.atts na _).bind _ = _
    rw [putBlocks_eq]
    change (putBlocks t.pipes na _).map _ = _
    rw [putBlocks_eq]
    change some _ = some _
    rw [← hprops]
    rfl
  · exact ⟨copied_puts h.props (fun _ => Iff.rfl),copied_puts h.atts (fun _ => mem_itemKeys),
      copied_puts h.pipes (fun _ => mem_itemKeys)⟩

end Devices

section Server
variable {db : Database}

/-- A class of the server, with the calls that ask for the attributes of a class named like the
attribute. -/
theorem class_items (db : Database) (na server : String) :
    (tangoClass db na server).attributes = [] ∧ (tangoClass db na server).pipes = [] := by
  unfold tangoClass getClassAttributeProperty getClassPipeProperty getItems
  simp

theorem put_devices (names : List String) {t : Database} {owned : String → Prop}
    (h : CopiedAll db.devs t.devs owned) :
    ∃ devs, (names.map (tangoDevice db)).foldlM putDevice t = some { t with devs := devs } ∧
      CopiedAll db.devs devs (fun x => x ∈ names ∨ owned x) := by
  induction names generalizing t owned with
  | nil =>
    refine ⟨t.devs,rfl,?_⟩
    simpa using h
  | cons na names ih =>
    obtain ⟨d,hput,hd⟩ := put_device h na
    obtain ⟨devs,hfold,hdevs⟩ := ih (t := { t with devs := d }) hd
    refine ⟨devs,?_,?_⟩
    · rw [List.map_cons,List.foldlM_cons]
      have hone : putDevice t (tangoDevice db na) = some { t with devs := d } := by
        unfold putDevice
        rw [hput]
        rfl
      rw [hone]
      exact hfold
    · have hiff : (fun x => x ∈ names ∨ x = na ∨ owned x) = (fun x => x ∈ na :: names ∨ owned x) := by
        funext x
        rw [List.mem_cons,← or_assoc,or_comm (a := x ∈ names)]
      rwa [hiff] at hdevs

/-- What is in the database after some of the classes. -/
structure Filled (db t : Database) (classes devices : String → Prop) : Prop where
  props : Copied db.classes.props t.classes.props classes
  atts : t.classes.atts = ∅
  pipes : t.classes.pipes = ∅
  devs : CopiedAll db.devs t.devs devices

theorem put_class {t : Database} {classes devices : String → Prop} (h : Filled db t classes devices)
    (server na : String) :
    ∃ t', putClass t (tangoClass db na server) = some t' ∧ t'.devices = t.devices ∧
      Filled db t' (fun x => x = na ∨ classes x)
        (fun x => x ∈ getDeviceName db server na ∨ devices x) := by
  obtain ⟨hatts,hpipes⟩ := class_items db na server
  have hprops : (if (tangoClass db na server).properties = [] then t.classes.props
      else putProps t.classes.props na (tangoClass db na server).properties) =
      puts db.classes.props na (db.classes.props.keysOf na) t.classes.props := by
    rw [← putProps_eq]
    change (if getProps _ _ _ = [] then _ else putProps _ _ (getProps _ _ _)) = _
    split
    next hnil =>
      change getProps db.classes.props na (db.classes.props.keysOf na) = [] at hnil
      rw [hnil]
      rfl
    next => rfl
  have hput : (tangoClass db na server).put t.classes = some { t.classes with
      props := puts db.classes.props na (db.classes.props.keysOf na) t.classes.props } := by
    rw [← hprops]
    unfold TangoObject.put
    rw [hatts,hpipes]
    rfl
  obtain ⟨devs,hfold,hdevs⟩ := put_devices (getDeviceName db server na)
    (t := { t with classes := { t.classes with
      props := puts db.classes.props na (db.classes.props.keysOf na) t.classes.props } }) h.devs
  refine ⟨{ t with
      classes := { t.classes with
        props := puts db.classes.props na (db.classes.props.keysOf na) t.classes.props }
      devs := devs },?_,rfl,?_⟩
  · unfold putClass
    rw [hput]
    exact hfold
  · exact ⟨copied_puts h.props (fun _ => Iff.rfl),h.atts,h.pipes,hdevs⟩

theorem put_classes (names : List String) {t : Database} {classes devices : String → Prop}
    (h : Filled db t classes devices) (server : String) :
    ∃ t', (names.map (tangoClass db · server)).foldlM putClass t = some t' ∧
      t'.devices = t.devices ∧
      Filled db t' (fun x => x ∈ names ∨ classes x)
        (fun x => (∃ c ∈ names, x ∈ getDeviceName db server c) ∨ devices x) := by
  induction names generalizing t classes devices with
  | nil =>
    refine ⟨t,rfl,rfl,?_⟩
    simpa using h
  | cons na names ih =>
    obtain ⟨t₁,hput,hdev₁,h₁⟩ := put_class h server na
    obtain ⟨t₂,hfold,hdev₂,h₂⟩ := ih h₁
    refine ⟨t₂,?_,hdev₂.trans hdev₁,?_⟩
    · rw [List.map_cons,List.foldlM_cons,hput]
      exact hfold
    · have hc : (fun x => x ∈ names ∨ x = na ∨ classes x) = (fun x => x ∈ na :: names ∨ classes x) := by
        funext x
        rw [List.mem_cons,← or_assoc,or_comm (a := x ∈ names)]
      have hd : (fun x => (∃ c ∈ names, x ∈ getDeviceName db server c) ∨
            x ∈ getDeviceName db server na ∨ devices x) =
          (fun x => (∃ c ∈ na :: names, x ∈ getDeviceName db server c) ∨ devices x) := by
        funext x
        rw [List.exists_mem_cons_iff,← or_assoc,or_comm (a := ∃ c ∈ names, _)]
      rwa [hc,hd] at h₂

theorem mem_getDeviceName {server c dev : String} :
    dev ∈ getDeviceName db server c ↔
      ∃ r ∈ db.devices, r.server = server ∧ r.className = c ∧ r.name = dev := by
  unfold getDeviceName
  rw [List.mem_map]
  simp only [List.mem_filter,decide_eq_true_eq,and_assoc]

/-- The classes of the server are the classes of its devices, and the one of its admin device. -/
theorem className_listed {server : String} {r : DbDevInfo} (hr : r ∈ db.devices)
    (hs : r.server = server) : r.className ∈ serverClasses db server := by
  unfold serverClasses getServerClassList
  rw [List.mem_cons,List.mem_filter,List.mem_dedup,List.mem_map]
  by_cases hd : r.className = "DServer"
  · exact .inl hd
  · refine .inr ⟨⟨r,List.mem_filter.mpr ⟨hr,decide_eq_true hs⟩,rfl⟩,?_⟩
    exact decide_eq_true hd

theorem serverDevice_iff {server dev : String} :
    (∃ c ∈ serverClasses db server, dev ∈ getDeviceName db server c) ↔
      ServerDevice db server dev := by
  constructor
  · rintro ⟨c,-,hm⟩
    obtain ⟨r,hr,hs,-,hn⟩ := mem_getDeviceName.mp hm
    exact ⟨r,hr,hs,hn⟩
  · rintro ⟨r,hr,hs,hn⟩
    exact ⟨r.className,className_listed hr hs,mem_getDeviceName.mpr ⟨r,hr,hs,rfl,hn⟩⟩

/-- The devices that are created. -/
theorem created_devices (server : String) (r : DbDevInfo) :
    r ∈ (createServer ⟨server,(serverClasses db server).map (tangoClass db · server)⟩ .empty).devices ↔
      r ∈ db.devices ∧ r.server = server := by
  unfold createServer addServer Database.empty
  simp only [List.filter_nil,List.nil_append,List.flatMap_map,List.mem_map,List.mem_flatMap]
  constructor
  · rintro ⟨d,⟨c,-,o,ho,rfl⟩,rfl⟩
    obtain ⟨dev,hdev,rfl⟩ := List.mem_map.mp ho
    obtain ⟨r,hr,hs,hc,hn⟩ := mem_getDeviceName.mp hdev
    obtain ⟨name,className,srv⟩ := r
    dsimp only at hs hc hn
    subst hs hc hn
    exact ⟨hr,rfl⟩
  · rintro ⟨hr,hs⟩
    refine ⟨r,⟨r.className,className_listed hr hs,tangoDevice db r.name,?_,?_⟩,?_⟩
    · exact List.mem_map_of_mem (mem_getDeviceName.mpr ⟨r,hr,hs,rfl,rfl⟩)
    · obtain ⟨name,className,srv⟩ := r
      cases hs
      rfl
    · obtain ⟨name,className,srv⟩ := r
      cases hs
      rfl

theorem keysOf_of_itemList {s : Table (String × String)} {o : String} (h : itemList s o = [])
    (k : String × String) : s.lookup (o,k) = none := by
  by_contra hn
  have hk : k.1 ∈ itemList s o := by
    unfold itemList
    rw [List.mem_dedup]
    exact List.mem_map_of_mem (mem_keysOf.mpr hn)
  rw [h] at hk
  cases hk

theorem itemList_of_none {s : Table (String × String)} {o : String}
    (h : ∀ k, s.lookup (o,k) = none) : itemList s o = [] := by
  apply List.eq_nil_iff_forall_not_mem.mpr
  intro i hi
  unfold itemList at hi
  rw [List.mem_dedup] at hi
  obtain ⟨k,hk,-⟩ := List.mem_map.mp hi
  exact mem_keysOf.mp hk (h k)

/-- An empty table is a copy for objects without properties only. -/
theorem copied_empty_iff {s : Table (String × String)} {owned : String → Prop} :
    Copied s ∅ owned ↔ ∀ o, owned o → itemList s o = [] := by
  constructor
  · intro h o ho
    exact itemList_of_none (fun k => ((h o k).1 ho).symm)
  · intro h o k
    exact ⟨fun ho => (keysOf_of_itemList (h o ho) k).symm,fun _ => rfl⟩

/-- A server that is moved to an empty database is there with all its data if and only if its
classes have no properties of attributes and pipes. -/
theorem server_moved_iff {db : Database} {execName instName tgHost : String} {data : DbServerData}
    (hd : dbServerData db execName instName = some data) (hh : tgHost.toList.contains ':' = true) :
    ∃ moved, putInDatabase data tgHost .empty = some moved ∧
      (Moved db (execName ++ "/" ++ instName) moved ↔ Bare db (execName ++ "/" ++ instName)) := by
  unfold dbServerData at hd
  dsimp only at hd
  generalize execName ++ "/" ++ instName = server at hd ⊢
  split at hd
  case isFalse => cases hd
  case isTrue =>
  have hdata : data = ⟨server,(serverClasses db server).map (tangoClass db · server)⟩ :=
    (Option.some.inj hd).symm
  rw [hdata]
  have hstart : Filled db (createServer
      ⟨server,(serverClasses db server).map (tangoClass db · server)⟩ .empty)
      (fun _ => False) (fun _ => False) :=
    ⟨copied_empty _,rfl,rfl,copied_empty _,copied_empty _,copied_empty _⟩
  obtain ⟨moved,hput,hdev,hfill⟩ := put_classes (serverClasses db server) hstart server
  refine ⟨moved,?_,?_⟩
  · unfold putInDatabase
    rw [if_pos hh]
    exact hput
  simp only [or_false] at hfill
  have hdevs : CopiedAll db.devs moved.devs (ServerDevice db server) := by
    have hiff : (fun x => ∃ c ∈ serverClasses db server, x ∈ getDeviceName db server c) =
        ServerDevice db server := funext (fun x => propext serverDevice_iff)
    rw [← hiff]
    exact hfill.devs
  constructor
  · intro hm
    have hatts := hm.classes.atts
    have hpipes := hm.classes.pipes
    rw [hfill.atts] at hatts
    rw [hfill.pipes] at hpipes
    exact fun c hc => ⟨copied_empty_iff.mp hatts c hc,copied_empty_iff.mp hpipes c hc⟩
  · intro hb
    refine ⟨?_,⟨hfill.props,?_,?_⟩,hdevs⟩
    · intro r
      rw [hdev]
      exact created_devices server r
    · rw [hfill.atts]
      exact copied_empty_iff.mpr (fun c hc => (hb c hc).1)
    · rw [hfill.pipes]
      exact copied_empty_iff.mpr (fun c hc => (hb c hc).2)

/-- A server with one motor. -/
def motorDevices : List DbDevInfo :=
  [⟨"dserver/motor/1","DServer","motor/1"⟩,⟨"sys/motor/1","Motor","motor/1"⟩]

def oneValue (v : String) : Values := ⟨[v],List.cons_ne_nil v []⟩

def motorDb (classAtts : Table (String × String)) : Database where
  devices := motorDevices
  classes := ⟨AList.insert ("Motor","axes") (oneValue "2") ∅,classAtts,∅⟩
  devs := ⟨AList.insert ("sys/motor/1","port") (oneValue "7") ∅,
    AList.insert ("sys/motor/1",("speed","unit")) (oneValue "mm/s")
      (AList.insert ("sys/motor/1",("speed","label")) (oneValue "Speed") ∅),∅⟩

theorem motor_server_moved :
    ∃ data, dbServerData (motorDb ∅) "motor" "1" = some data ∧
      ∃ moved, putInDatabase data "host:10000" .empty = some moved ∧
        Moved (motorDb ∅) "motor/1" moved := by
  refine ⟨_,rfl,?_⟩
  have hdata : dbServerData (motorDb ∅) "motor" "1" = some _ := rfl
  have hhost : "host:10000".toList.contains ':' = true := by decide
  obtain ⟨moved,hput,hiff⟩ := server_moved_iff hdata hhost
  exact ⟨moved,hput,hiff.mpr (by decide)⟩

/-- The unit that the class gives to its attribute is lost. -/
theorem class_attribute_lost :
    ∃ data moved, dbServerData
        (motorDb (AList.insert ("Motor",("speed","unit")) (oneValue "mm") ∅)) "motor" "1" = some data ∧
      putInDatabase data "host:10000" .empty = some moved ∧
      ¬ Moved (motorDb (AList.insert ("Motor",("speed","unit")) (oneValue "mm") ∅)) "motor/1" moved := by
  refine ⟨_,_,rfl,rfl,?_⟩
  intro h
  have hatt := (h.classes.atts "Motor" ("speed","unit")).1 (by decide)
  exact absurd hatt (by decide)

end Server

end CppTango.Db.ServerData
