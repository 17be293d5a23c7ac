import CppTango.Db.FileReadBack

namespace CppTango.Db

open CppTango.Lib CppTango.Device

section Stages
variable {s s' : TServer}

def newDevice (n : String) : TDevice := ⟨n,[],[]⟩

def newClass (c : TTangoClass) : TTangoClass := ⟨newDevice c.name,c.devices⟩

/-- The classes and devices that the first lines define. -/
theorem effects_classes (cs : List TTangoClass) (s' : TServer) :
    effects (cs.flatMap (fun c => [classPiece s c])) s' = .ok ⟨s'.name,
      if cs = [] then s'.instanceName else s.instanceName,s'.classes ++ cs.map newClass,
      s'.devices ++ (cs.flatMap TTangoClass.devices).map newDevice,s'.freeObjects⟩ := by
  induction cs generalizing s' with
  | nil => simp [effects,pure,Except.pure]
  | cons c cs ih =>
    have hone : effects [classPiece s c] s' = .ok (defineClass s' s.instanceName c.name c.devices) :=
      effects_one _ _ _ s'
    rw [List.flatMap_cons,effects_append,hone]
    simp only [Except.bind]
    rw [ih,if_neg (List.cons_ne_nil _ _)]
    unfold defineClass
    simp only [ite_self,List.map_cons,List.flatMap_cons,List.map_append,List.append_assoc,
      List.singleton_append]
    rfl

theorem fill_name (d d0 : TDevice) : (d.fill d0).name = d0.name := rfl

theorem picks_name {α : Type} {name : α → String} {l : List α}
    (h : ∀ a ∈ l, lowerName (name a) ≠ []) (n : String) :
    Picks (fun a => lowerName (name a)) (fun a => equalsIgnoreCase (name a) n) (lowerName n) l := by
  intro a ha
  rw [equalsIgnoreCase_iff]
  refine and_iff_left ?_
  intro he
  exact h a ha (by rw [he]; rfl)

theorem lower_ne_nil {n : String} (h : n ≠ "") : lowerName n ≠ [] := by
  intro he
  unfold lowerName at he
  exact h (String.toList_eq_nil_iff.mp (List.map_eq_nil_iff.mp he))

/-- Owners that are new are filled one after the other, each with its own properties. -/
theorem filled {α ω : Type} (name : α → String) (owner : ω → String) (g : ω → α → α) (os : List ω)
    {l : List α} (hg : ∀ o a, name (g o a) = name a) (hl : Named name l) (hos : (os.map (fun o => lowerName (owner o))).Nodup) :
    let l' := os.foldl (fun l o => updateFirst (fun a => equalsIgnoreCase (name a) (owner o)) (g o) l) l
    l'.map name = l.map name ∧ ∀ o ∈ os, ∀ a ∈ l, name a = owner o → g o a ∈ l' := by
  have hkeys : ∀ (os : List ω) (l : List α), (os.foldl (fun l o =>
      updateFirst (fun a => equalsIgnoreCase (name a) (owner o)) (g o) l) l).map name = l.map name := by
    intro os
    induction os with
    | nil => exact fun _ => rfl
    | cons o os ih => exact fun l => (ih _).trans (keys_updateFirst (hg o))
  have hpick : ∀ o ∈ os, ∀ l' : List α, l'.map (fun a => lowerName (name a)) = l.map (fun a => lowerName (name a)) →
      Picks (fun a => lowerName (name a)) (fun a => equalsIgnoreCase (name a) (owner o)) (lowerName (owner o)) l' := by
    intro o _ l' hl'
    apply picks_name
    intro a ha
    have hm : lowerName (name a) ∈ l.map (fun a => lowerName (name a)) := by
      rw [← hl']
      exact List.mem_map_of_mem ha
    obtain ⟨b,hb,he⟩ := List.mem_map.mp hm
    rw [← he]
    exact lower_ne_nil (hl.nonempty b hb)
  obtain ⟨-,hdone,-⟩ := mem_foldl_updateFirst (g := g) (fun o a => by rw [hg]) hl.names hos hpick
  exact ⟨hkeys os l,fun o ho a ha he => hdone o ho a ha (by rw [he])⟩

theorem foldl_onClass_classes (cs : List TTangoClass) (s' : TServer) :
    cs.foldl (fun s c => onClass c.name c.toTDevice.fill s) s' = ⟨s'.name,s'.instanceName,
      cs.foldl (fun l c => updateFirst (fun a => equalsIgnoreCase a.name c.name)
        (TTangoClass.on c.toTDevice.fill) l) s'.classes,s'.devices,s'.freeObjects⟩ := by
  induction cs generalizing s' with
  | nil => rfl
  | cons c cs ih => exact ih (onClass c.name c.toTDevice.fill s')

theorem foldl_onDevice_devices (ds : List TDevice) (s' : TServer) :
    ds.foldl (fun s d => onDevice d.name d.fill s) s' = ⟨s'.name,s'.instanceName,s'.classes,
      ds.foldl (fun l d => updateFirst (fun a => equalsIgnoreCase a.name d.name) d.fill l) s'.devices,
      s'.freeObjects⟩ := by
  induction ds generalizing s' with
  | nil => rfl
  | cons d ds ih => exact ih (onDevice d.name d.fill s')

/-- The classes of the file come back in order, with all that was written of them. -/
theorem classes_back (h : FileStore s) :
    s.classes.foldl (fun l c => updateFirst (fun a => equalsIgnoreCase a.name c.name)
      (TTangoClass.on c.toTDevice.fill) l) (s.classes.map newClass) = s.classes.map TTangoClass.written := by
  have hnew : Named (fun c : TTangoClass => c.name) (s.classes.map newClass) := by
    constructor
    · rw [List.map_map]
      exact h.classes.names
    · intro c hc
      obtain ⟨c0,hc0,rfl⟩ := List.mem_map.mp hc
      exact h.classes.nonempty c0 hc0
  obtain ⟨hk,hdone⟩ := filled (fun c : TTangoClass => c.name) (fun c : TTangoClass => c.name)
    (fun o => TTangoClass.on o.toTDevice.fill) s.classes (fun _ _ => rfl) hnew h.classes.names
  have hnodup : ((s.classes.map TTangoClass.written).map (fun c : TTangoClass => c.name)).Nodup := by
    rw [List.map_map]
    exact List.Nodup.of_map lowerName (by rw [List.map_map]; exact h.classes.names)
  apply eq_of_keys ?_ hnodup
  · intro c hc
    obtain ⟨c0,hc0,rfl⟩ := List.mem_map.mp hc
    have hw : TTangoClass.on c0.toTDevice.fill (newClass c0) = c0.written := by
      unfold TTangoClass.on newClass TTangoClass.written newDevice
      simp only
      rw [fill_new (h.classOwners c0 hc0).atts]
    rw [← hw]
    exact hdone c0 hc0 _ (List.mem_map_of_mem hc0) rfl
  · rw [hk,List.map_map,List.map_map]
    rfl

/-- Every device of the file comes back with all that was written of it. -/
theorem devices_back (h : FileStore s) :
    let back := s.devices.foldl (fun l d => updateFirst (fun a => equalsIgnoreCase a.name d.name) d.fill l)
      ((s.classes.flatMap TTangoClass.devices).map newDevice)
    back.map TDevice.name = s.classes.flatMap TTangoClass.devices ∧ ∀ d ∈ s.devices, d.written ∈ back := by
  have hnew : Named TDevice.name ((s.classes.flatMap TTangoClass.devices).map newDevice) := by
    constructor
    · rw [List.map_map]
      have hp := (h.linked.map lowerName).nodup_iff
      rw [List.map_map] at hp
      exact hp.mpr h.devices.names
    · intro d hd
      obtain ⟨n,hn,rfl⟩ := List.mem_map.mp hd
      obtain ⟨d0,hd0,rfl⟩ := List.mem_map.mp (h.linked.subset hn)
      exact h.devices.nonempty d0 hd0
  obtain ⟨hk,hdone⟩ := filled TDevice.name TDevice.name TDevice.fill s.devices fill_name hnew
    h.devices.names
  refine ⟨?_,?_⟩
  · rw [hk,List.map_map]
    exact List.map_id _
  · intro d hd
    have hin : newDevice d.name ∈ (s.classes.flatMap TTangoClass.devices).map newDevice :=
      List.mem_map_of_mem (h.linked.symm.subset (List.mem_map_of_mem hd))
    have := hdone d hd _ hin rfl
    rw [show newDevice d.name = ⟨d.name,[],[]⟩ from rfl,fill_new (h.deviceOwners d hd).atts] at this
    exact this

/-- What the statements of the file do to a new server. -/
theorem effects_filePieces (h : FileStore s) (hc : s.classes ≠ []) :
    ∃ s', effects (filePieces s) { newServer with name := s.name } = .ok s' ∧ SameStore s s' := by
  obtain ⟨hnames,hback⟩ := devices_back h
  have hhas : ∀ d ∈ s.devices, HasDevice d.name (⟨s.name,s.instanceName,s.classes.map TTangoClass.written,
      (s.classes.flatMap TTangoClass.devices).map newDevice,[]⟩ : TServer) := by
    intro d hd
    have hin : newDevice d.name ∈ (s.classes.flatMap TTangoClass.devices).map newDevice :=
      List.mem_map_of_mem (h.linked.symm.subset (List.mem_map_of_mem hd))
    have hself := h.devices.self hd
    exact List.any_eq_true.mpr ⟨_,hin,hself⟩
  have hdev : ∀ d ∈ s.devices, ∀ s', (∀ d ∈ s.devices, HasDevice d.name s') →
      effects (devicePieces d) s' = .ok (onDevice d.name d.fill s') ∧
        ∀ e ∈ s.devices, HasDevice e.name (onDevice d.name d.fill s') := by
    intro d hd s' hs'
    exact ⟨effects_devicePieces d (hs' d hd),fun e he => hasDevice_onDevice (fill_name d) (hs' e he)⟩
  have hfree : ∀ (o : TFreeObject), o ∈ s.freeObjects → ∀ s',
      effects (o.properties.flatMap (fun p => [freePiece o p])) s' =
        .ok (o.properties.foldl (fun s p => addFreeProp s o.name p) s') := by
    intro o _ s'
    exact effects_flatMap_all _ (fun p _ s => effects_one _ _ _ s) s'
  refine ⟨⟨s.name,s.instanceName,s.classes.map TTangoClass.written,_,
    s.freeObjects.filter (fun o => !o.properties.isEmpty)⟩,?_,⟨rfl,rfl,rfl,hnames,hback,rfl⟩⟩
  unfold filePieces
  rw [effects_append,effects_classes]
  simp only [Except.bind,newServer,List.nil_append]
  rw [if_neg hc,effects_junk,effects_append,effects_flatMap_all _ (fun c _ s => effects_classPieces c s),
    foldl_onClass_classes]
  simp only [Except.bind]
  rw [classes_back h,effects_junk,effects_append,(effects_flatMap _ hdev hhas).1,foldl_onDevice_devices]
  simp only [Except.bind]
  rw [effects_junk,effects_flatMap_all _ hfree,fold_free h.free _ rfl]

end Stages

section RoundTrip
variable {s : TServer}

/-- A text that ends with the end of a line. -/
def EndsLine (t : Text) : Prop := ∃ u, t = u ++ ['\n']

theorem EndsLine.last {t : Text} (h : EndsLine t) : t.getLastD ' ' = '\n' := by
  obtain ⟨u,rfl⟩ := h
  rw [List.getLastD_concat]

theorem EndsLine.prepend {t : Text} (h : EndsLine t) (t' : Text) : EndsLine (t' ++ t) := by
  obtain ⟨u,rfl⟩ := h
  exact ⟨t' ++ u,(List.append_assoc _ _ _).symm⟩

theorem EndsLine.append {t : Text} (h : EndsLine t) (t' : Text) (h' : t' = [] ∨ EndsLine t') :
    EndsLine (t ++ t') := by
  obtain ⟨u,rfl⟩ := h
  rcases h' with rfl | ⟨v,rfl⟩
  · exact ⟨u,List.append_nil _⟩
  · exact ⟨u ++ ['\n'] ++ v,by rw [List.append_assoc (u ++ ['\n'])]⟩

theorem endsLine_flatMap {β : Type} {f : β → Text} (hf : ∀ b, f b = [] ∨ EndsLine (f b)) (l : List β) :
    l.flatMap f = [] ∨ EndsLine (l.flatMap f) := by
  induction l with
  | nil => exact Or.inl rfl
  | cons b l ih =>
    rw [List.flatMap_cons]
    rcases hf b with hb | hb
    · rw [hb,List.nil_append]
      exact ih
    · exact Or.inr (hb.append _ ih)

theorem endsLine_writeFile (s : TServer) : EndsLine (writeFile s) := by
  have hfree : ∀ o : TFreeObject, o.properties.flatMap (freeLine o) = [] ∨
      EndsLine (o.properties.flatMap (freeLine o)) :=
    fun o => endsLine_flatMap (fun p => Or.inr ⟨_,rfl⟩) o.properties
  unfold writeFile
  apply EndsLine.append _ _ (endsLine_flatMap hfree s.freeObjects)
  apply EndsLine.prepend
  exact ⟨"#############################################\n# FREE OBJECT attributes\n".toList,rfl⟩

theorem pieces_fit (ps : List Piece) (hne : ∀ p ∈ ps, p.text ≠ []) :
    ps.length ≤ (ps.flatMap Piece.text).length := by
  induction ps with
  | nil => exact Nat.zero_le _
  | cons p ps ih =>
    have hp := List.length_pos_of_ne_nil (hne p List.mem_cons_self)
    have hps := ih (fun q hq => hne q (List.mem_cons_of_mem _ hq))
    rw [List.flatMap_cons,List.length_append,List.length_cons]
    omega

theorem filePieces_text_ne (s : TServer) : ∀ p ∈ filePieces s, p.text ≠ [] := by
  have hst : ∀ x w e, (Piece.statement x w e).text ≠ [] := fun x w e => by simp [Piece.text]
  intro q hq
  simp only [filePieces,classPieces,devicePieces,List.mem_cons,List.mem_append,List.mem_flatMap,
    List.not_mem_nil,or_false] at hq
  rcases hq with ⟨c,-,rfl⟩ | rfl | ⟨c,-,rfl | ⟨p,-,rfl⟩ | rfl | ⟨a,-,p,-,rfl⟩ | rfl⟩ | rfl |
    ⟨d,-,rfl | ⟨p,-,rfl⟩ | rfl | ⟨a,-,p,-,rfl⟩⟩ | rfl | ⟨o,-,p,-,rfl⟩
  · exact hst _ _ _
  · exact List.cons_ne_nil _ _
  · exact List.cons_ne_nil _ _
  · exact hst _ _ _
  · exact List.cons_ne_nil _ _
  · exact hst _ _ _
  · exact List.cons_ne_nil _ _
  · exact List.cons_ne_nil _ _
  · exact List.cons_ne_nil _ _
  · exact hst _ _ _
  · exact List.cons_ne_nil _ _
  · exact hst _ _ _
  · exact List.cons_ne_nil _ _
  · exact hst _ _ _

/-- A file that was written is read back as it was, when it has a class and no name or value in it
is taken for something else. -/
theorem file_round_trip (h : FileStore s) (hr : Readable s) :
    ∃ s', parseResFile (writeFile s) = .ok s' ∧ SameStore s s' := by
  obtain ⟨s',heff,hsame⟩ := effects_filePieces h hr.classes
  refine ⟨s',?_,hsame⟩
  have hblank : Junk [' ',' '] := Junk.blank rfl (Junk.blank rfl Junk.nil)
  have hok : ∀ p ∈ filePieces s ++ [Piece.junk ['\n']], p.Ok := by
    intro p hp
    rcases List.mem_append.mp hp with hp | hp
    · exact ok_filePieces h hr p hp
    · rw [List.mem_singleton.mp hp]
      exact junk_newline
  have hstream : streamOf (writeFile s) =
      [' ',' '] ++ (filePieces s ++ [Piece.junk ['\n']]).flatMap Piece.text := by
    unfold streamOf
    rw [(endsLine_writeFile s).last,List.flatMap_append,text_filePieces,List.append_assoc]
    rfl
  obtain ⟨word,t',hread,-,-,hfirst,hresume⟩ := resume_pieces hok hblank
  -- the first statement defines a class, so the first word is the name of the server
  obtain ⟨c,cs,hcs⟩ := List.exists_cons_of_ne_nil hr.classes
  have hword : word = s.name := by
    have hshape : ∃ ps, filePieces s ++ [Piece.junk ['\n']] = classPiece s c :: ps := by
      unfold filePieces
      rw [hcs]
      exact ⟨_,rfl⟩
    obtain ⟨ps,hps⟩ := hshape
    exact hfirst _ _ _ ps hps
  have hfit := pieces_fit (filePieces s) (filePieces_text_ne s)
  rw [text_filePieces] at hfit
  have hloop := hresume ((writeFile s).length + 1) { newServer with name := s.name }
    (by rw [List.length_append,List.length_singleton]; omega)
  rw [effects_append,heff] at hloop
  have hne : s.name ≠ "" := by
    intro he
    exact h.name.nonempty (by rw [he]; rfl)
  unfold resume at hloop
  subst hword
  rw [if_neg h.name.null] at hloop
  unfold parseResFile
  rw [hstream,hread]
  simp only [bind,Except.bind]
  rw [if_neg hne,hloop]
  rfl

/-- A server with one class, and one device that has a path for a property. -/
def pathStore (path : String) : TServer where
  name := "Motor"
  instanceName := "test"
  classes := [⟨⟨"Motor",[],[]⟩,["a/b/c"]⟩]
  devices := [⟨"a/b/c",[⟨"Root",[path]⟩],[]⟩]
  freeObjects := []

theorem named_nil {α : Type} (name : α → String) : Named name [] := ⟨List.nodup_nil,by simp⟩

theorem named_one {α : Type} {name : α → String} {a : α} (h : name a ≠ "") : Named name [a] :=
  ⟨List.nodup_singleton _,by simpa using h⟩

theorem pathStore_ok {path : String} (h : ValueOk path) : FileStore (pathStore path) where
  name := show NameOk "Motor" by decide
  instanceName := show NameOk "test" by decide
  classes := named_one (by decide)
  classNames := by
    intro c hc
    rw [List.mem_singleton.mp hc]
    decide
  classOwners := by
    intro c hc
    rw [List.mem_singleton.mp hc]
    exact ⟨⟨named_nil _,by simp,by simp⟩,named_nil _,by simp,by simp⟩
  classDevices := by simp [pathStore]
  devices := named_one (show "a/b/c" ≠ "" by decide)
  deviceNames := by
    intro d hd
    rw [List.mem_singleton.mp hd]
    exact ⟨"a","b","c",by decide,by decide,by decide,rfl⟩
  deviceOwners := by
    intro d hd
    rw [List.mem_singleton.mp hd]
    refine ⟨⟨named_one (by simp),?_,?_⟩,named_nil _,by simp,by simp⟩
    · intro p hp
      rw [List.mem_singleton.mp hp]
      exact show NameOk "Root" by decide
    · intro p hp
      rw [List.mem_singleton.mp hp]
      exact ⟨by simp,by simpa using h⟩
  linked := List.Perm.refl _
  free := named_nil _
  freeNames := by simp [pathStore]
  freeProps := by simp [pathStore]

theorem pathStore_readable : Readable (pathStore "/home") where
  classes := by simp [pathStore]
  instanceName := by decide
  classNames := by
    intro c hc
    rw [List.mem_singleton.mp hc]
    decide
  classOwners := by
    intro c hc
    rw [List.mem_singleton.mp hc]
    exact ⟨by simp [SpeechlessProps],by simp,by simp⟩
  deviceOwners := by
    intro d hd
    rw [List.mem_singleton.mp hd]
    exact ⟨by simp [SpeechlessProps,Speechless],by simp,by simp⟩
  devicePaths := by
    intro d hd _
    rw [List.mem_singleton.mp hd]
    decide
  deviceDomains := by
    intro d hd _
    rw [List.mem_singleton.mp hd]
    decide
  freeNames := by simp [pathStore]
  freeProps := by simp [pathStore]

theorem file_round_trip_home : FileStore (pathStore "/home") ∧
    ∃ s', parseResFile (writeFile (pathStore "/home")) = .ok s' ∧ SameStore (pathStore "/home") s' :=
  ⟨pathStore_ok (by decide),file_round_trip (pathStore_ok (by decide)) pathStore_readable⟩

/-- A value that is a slash is written without quotes and refused when it is read. -/
theorem root_path_refused : FileStore (pathStore "/") ∧
    ¬ ∃ s', parseResFile (writeFile (pathStore "/")) = .ok s' ∧ SameStore (pathStore "/") s' := by
  refine ⟨pathStore_ok (by decide),?_⟩
  rintro ⟨s',hs',-⟩
  have hfail : (parseResFile (writeFile (pathStore "/"))).toOption = none := by decide +kernel
  rw [hs'] at hfail
  cases hfail

end RoundTrip

end CppTango.Db
