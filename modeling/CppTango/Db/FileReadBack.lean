import CppTango.Db.FileRoundTrip

namespace CppTango.Db

open CppTango.Lib CppTango.Device

section Stores

/-- Properties with names and values that can be written. -/
structure PropsWritable (ps : List TProperty) : Prop where
  named : Named TProperty.name ps
  names : ∀ p ∈ ps, NameOk p.name
  values : ∀ p ∈ ps, p.value ≠ [] ∧ ∀ v ∈ p.value, ValueOk v

/-- The properties of a device or of a class, and of its attributes. -/
structure OwnerWritable (d : TDevice) : Prop where
  props : PropsWritable d.properties
  atts : Named TAttributeProperty.attributeName d.attributeProperties
  attNames : ∀ a ∈ d.attributeProperties, NameOk a.attributeName
  attProps : ∀ a ∈ d.attributeProperties, PropsWritable a.properties

/-- Three words with slashes between them. -/
def DevName (n : String) : Prop :=
  ∃ d f m, NameOk d ∧ NameOk f ∧ NameOk m ∧ n = d ++ "/" ++ f ++ "/" ++ m

/-- A server with names and values that can be written. -/
structure FileStore (s : TServer) : Prop where
  name : NameOk s.name
  instanceName : NameOk s.instanceName
  classes : Named (fun c : TTangoClass => c.name) s.classes
  classNames : ∀ c ∈ s.classes, NameOk c.name
  classOwners : ∀ c ∈ s.classes, OwnerWritable c.toTDevice
  classDevices : ∀ c ∈ s.classes, c.devices ≠ []
  devices : Named TDevice.name s.devices
  deviceNames : ∀ d ∈ s.devices, DevName d.name
  deviceOwners : ∀ d ∈ s.devices, OwnerWritable d
  linked : (s.classes.flatMap TTangoClass.devices).Perm (s.devices.map TDevice.name)
  free : Named TFreeObject.name s.freeObjects
  freeNames : ∀ o ∈ s.freeObjects, NameOk o.name
  freeProps : ∀ o ∈ s.freeObjects, PropsWritable o.properties

def SpeechlessProps (ps : List TProperty) : Prop := ∀ p ∈ ps, ∀ v ∈ p.value, Speechless v

/-- What is written of an owner has no word that the parser takes for something else. -/
structure OwnerReadable (d : TDevice) : Prop where
  props : SpeechlessProps d.properties
  attProps : ∀ a ∈ d.attributeProperties, SpeechlessProps a.properties
  attNames : ∀ a ∈ d.attributeProperties, a.properties ≠ [] → NoStar a.attributeName

def TDevice.hasProps (d : TDevice) : Prop :=
  d.properties ≠ [] ∨ ∃ a ∈ d.attributeProperties, a.properties ≠ []

/-- Nothing in the file is taken for a comment, a separator or a class, and there is a class. -/
structure Readable (s : TServer) : Prop where
  classes : s.classes ≠ []
  instanceName : NoStar s.instanceName
  classNames : ∀ c ∈ s.classes, NoStar c.name
  classOwners : ∀ c ∈ s.classes, OwnerReadable c.toTDevice
  deviceOwners : ∀ d ∈ s.devices, OwnerReadable d
  devicePaths : ∀ d ∈ s.devices, d.hasProps → ¬ ['/','*'] <:+: d.name.toList
  deviceDomains : ∀ d ∈ s.devices, d.properties ≠ [] → (lowerName d.name).take 6 ≠ "class/".toList
  freeNames : ∀ o ∈ s.freeObjects, o.properties ≠ [] → NoStar o.name
  freeProps : ∀ o ∈ s.freeObjects, SpeechlessProps o.properties

/-- The same names and properties; an attribute or an object without properties is not in the file. -/
structure SameStore (s s' : TServer) : Prop where
  name : s'.name = s.name
  instanceName : s'.instanceName = s.instanceName
  classes : s'.classes = s.classes.map TTangoClass.written
  deviceNames : s'.devices.map TDevice.name = s.classes.flatMap TTangoClass.devices
  devices : ∀ d ∈ s.devices, d.written ∈ s'.devices
  freeObjects : s'.freeObjects = s.freeObjects.filter (fun o => !o.properties.isEmpty)

end Stores

section Junk

theorem quiet_of_all {x : Text} (h : x.all (fun c => c ≠ '\n' && c ≠ '\x00') = true) :
    ∀ c ∈ x, c ≠ '\n' ∧ c ≠ '\x00' := by
  intro c hc
  simpa using List.all_eq_true.mp h c hc

theorem junk_line {x : Text} (h : ∀ c ∈ x, c ≠ '\n' ∧ c ≠ '\x00') : Junk ('#' :: (x ++ ['\n'])) :=
  Junk.comment h Junk.nil

theorem quiet_name {w : String} (h : NameOk w) : ∀ c ∈ w.toList, c ≠ '\n' ∧ c ≠ '\x00' := by
  intro c hc
  have hp := h.plain c hc
  constructor
  · rintro rfl
    exact absurd hp (by decide)
  · rintro rfl
    exact absurd hp (by decide)

theorem quiet_append {x y : Text} (hx : ∀ c ∈ x, c ≠ '\n' ∧ c ≠ '\x00') (hy : ∀ c ∈ y, c ≠ '\n' ∧ c ≠ '\x00') :
    ∀ c ∈ x ++ y, c ≠ '\n' ∧ c ≠ '\x00' := by
  intro c hc
  rcases List.mem_append.mp hc with hc | hc
  · exact hx c hc
  · exact hy c hc

theorem quiet_devName {n : String} (h : DevName n) : ∀ c ∈ n.toList, c ≠ '\n' ∧ c ≠ '\x00' := by
  obtain ⟨d,f,m,hd,hf,hm,rfl⟩ := h
  have hslash : ∀ c ∈ "/".toList, c ≠ '\n' ∧ c ≠ '\x00' := quiet_of_all (by decide)
  simp only [String.toList_append]
  exact quiet_append (quiet_append (quiet_append (quiet_append (quiet_name hd) hslash) (quiet_name hf))
    hslash) (quiet_name hm)

/-- A comment line with a name in it, and an empty line behind it. -/
theorem junk_named {a b : Text} (ha : ∀ c ∈ a, c ≠ '\n' ∧ c ≠ '\x00') (hb : ∀ c ∈ b, c ≠ '\n' ∧ c ≠ '\x00')
    {x : Text} (hx : ∀ c ∈ x, c ≠ '\n' ∧ c ≠ '\x00') : Junk ('#' :: a ++ x ++ (b ++ ['\n','\n'])) := by
  have h := (junk_line (quiet_append (quiet_append ha hx) hb)).append junk_newline
  simpa using h

theorem junk_classHeader {c : TTangoClass} (h : NameOk c.name) : Junk (classHeader c) := by
  have h1 : Junk ("#############################################\n".toList) :=
    junk_line (x := "############################################".toList) (quiet_of_all (by decide))
  exact h1.append (junk_named (a := " CLASS ".toList) (b := []) (quiet_of_all (by decide))
    (quiet_of_all (by decide)) (quiet_name h))

theorem junk_classAttHeader {c : TTangoClass} (h : NameOk c.name) : Junk (classAttHeader c) :=
  junk_newline.append (junk_named (a := " CLASS ".toList) (b := " attribute properties".toList)
    (quiet_of_all (by decide)) (quiet_of_all (by decide)) (quiet_name h))

theorem junk_deviceHeader {d : TDevice} (h : DevName d.name) : Junk (deviceHeader d) :=
  junk_named (a := " DEVICE ".toList) (b := " properties ".toList) (quiet_of_all (by decide))
    (quiet_of_all (by decide)) (quiet_devName h)

theorem junk_deviceAttHeader {d : TDevice} (h : DevName d.name) : Junk (deviceAttHeader d) :=
  junk_newline.append (junk_named (a := " DEVICE ".toList) (b := " attribute properties".toList)
    (quiet_of_all (by decide)) (quiet_of_all (by decide)) (quiet_devName h))

theorem junk_freeHeader : Junk freeHeader := by
  have h1 : Junk ("#############################################\n".toList) :=
    junk_line (x := "############################################".toList) (quiet_of_all (by decide))
  exact h1.append (junk_named (a := " FREE OBJECT attributes".toList) (b := []) (x := []) (quiet_of_all (by decide))
    (quiet_of_all (by decide)) (quiet_of_all (by decide)))

end Junk

section Statements

theorem valuesText_prop {p : TProperty} (hne : p.value ≠ []) (hv : ∀ v ∈ p.value, ValueOk v)
    (hs : ∀ v ∈ p.value, Speechless v) (margin : Nat) : ValuesText (writeValues margin p.value) p.value := by
  obtain ⟨v,vs,he⟩ := List.exists_cons_of_ne_nil hne
  rw [he] at hv hs ⊢
  exact valuesText_write (fun u hu => ⟨hv u hu,hs u hu⟩) margin

theorem valuesText_classProp {p : TProperty} (hne : p.value ≠ []) (hv : ∀ v ∈ p.value, ValueOk v)
    (hs : ∀ v ∈ p.value, Speechless v) (margin : Nat) : ValuesText (writeClassValues margin p.value) p.value := by
  obtain ⟨v,vs,he⟩ := List.exists_cons_of_ne_nil hne
  rw [he] at hv hs ⊢
  exact valuesText_class (fun u hu => ⟨hv u hu,hs u hu⟩) margin

/-- The values of a property of an owner. -/
theorem PropsWritable.text {ps : List TProperty} (h : PropsWritable ps) (hs : SpeechlessProps ps)
    {p : TProperty} (hp : p ∈ ps) (margin : Nat) : ValuesText (writeValues margin p.value) p.value :=
  valuesText_prop (h.values p hp).1 (h.values p hp).2 (hs p hp) margin

theorem ok_classPieces {c : TTangoClass} (hn : NameOk c.name) (hs : NoStar c.name)
    (h : OwnerWritable c.toTDevice) (hr : OwnerReadable c.toTDevice) : ∀ q ∈ classPieces c, q.Ok := by
  intro q hq
  simp only [classPieces,List.mem_cons,List.mem_append,List.mem_flatMap,List.not_mem_nil,or_false] at hq
  rcases hq with rfl | ⟨p,hp,rfl⟩ | rfl | ⟨a,ha,p,hp,rfl⟩ | rfl
  · exact junk_classHeader hn
  · have hv := h.props.values p hp
    exact statement_classProp hn hs (h.props.names p hp) (valuesText_classProp hv.1 hv.2 (hr.props p hp) _)
  · exact junk_classAttHeader hn
  · have hne : a.properties ≠ [] := List.ne_nil_of_mem hp
    exact statement_classAtt hn hs (h.attNames a ha) (hr.attNames a ha hne) ((h.attProps a ha).names p hp)
      ((h.attProps a ha).text (hr.attProps a ha) hp _)
  · exact junk_newline

theorem noStar_of_path {pre : Text} {f : String} {post : Text}
    (h : ¬ ['/','*'] <:+: pre ++ '/' :: (f.toList ++ post)) : NoStar f := by
  intro he
  apply h
  cases hf : f.toList with
  | nil =>
    rw [hf] at he
    cases he
  | cons c l =>
    rw [hf] at he
    cases he
    exact ⟨pre,l ++ post,by simp⟩

/-- The words of a device name. -/
structure DevWords (d : TDevice) (w f m : String) : Prop where
  domain : NameOk w
  family : NameOk f
  member : NameOk m
  name : d.name = w ++ "/" ++ f ++ "/" ++ m

theorem DevWords.toList {d : TDevice} {w f m : String} (h : DevWords d w f m) :
    d.name.toList = w.toList ++ '/' :: (f.toList ++ '/' :: m.toList) := by
  rw [h.name]
  simp only [String.toList_append,List.append_assoc]
  rfl

theorem DevWords.domainOf {d : TDevice} {w f m : String} (h : DevWords d w f m) : domainOf d = w := by
  have hw : ∀ c ∈ w.toList, decide (c ≠ '/') = true := by
    intro c hc
    have := (plainChar_spec (h.domain.plain c hc)).2.2.2.1
    simpa using this
  unfold Db.domainOf
  rw [h.toList,List.takeWhile_append_of_pos hw,List.takeWhile_cons_of_neg (by simp),List.append_nil,
    String.ofList_toList]

theorem DevWords.noStar {d : TDevice} {w f m : String} (h : DevWords d w f m)
    (hp : ¬ ['/','*'] <:+: d.name.toList) : NoStar f ∧ NoStar m := by
  rw [h.toList] at hp
  refine ⟨noStar_of_path hp,?_⟩
  have hassoc : w.toList ++ '/' :: (f.toList ++ '/' :: m.toList) =
      (w.toList ++ '/' :: f.toList) ++ '/' :: (m.toList ++ []) := by simp
  rw [hassoc] at hp
  exact noStar_of_path hp

theorem DevWords.notClass {d : TDevice} {w f m : String} (h : DevWords d w f m)
    (hc : (lowerName d.name).take 6 ≠ "class/".toList) : equalsIgnoreCase w "class" = false := by
  rw [Bool.eq_false_iff]
  intro he
  apply hc
  have hl := (equalsIgnoreCase_iff.mp he).1
  unfold lowerName at hl ⊢
  rw [h.toList,List.map_append,hl]
  rfl

theorem ok_devicePieces {d : TDevice} (hn : DevName d.name) (h : OwnerWritable d) (hr : OwnerReadable d)
    (hpath : d.hasProps → ¬ ['/','*'] <:+: d.name.toList)
    (hdom : d.properties ≠ [] → (lowerName d.name).take 6 ≠ "class/".toList) : ∀ q ∈ devicePieces d, q.Ok := by
  obtain ⟨w,f,m,hw,hf,hm,hname⟩ := hn
  have hwords : DevWords d w f m := ⟨hw,hf,hm,hname⟩
  intro q hq
  simp only [devicePieces,List.mem_cons,List.mem_append,List.mem_flatMap,List.not_mem_nil,or_false] at hq
  rcases hq with rfl | ⟨p,hp,rfl⟩ | rfl | ⟨a,ha,p,hp,rfl⟩
  · exact junk_deviceHeader ⟨w,f,m,hw,hf,hm,hname⟩
  · have hne : d.properties ≠ [] := List.ne_nil_of_mem hp
    obtain ⟨hfs,hms⟩ := hwords.noStar (hpath (Or.inl hne))
    have hst := statement_devProp hw (hwords.notClass (hdom hne)) hf hfs hm hms (h.props.names p hp)
      (h.props.text hr.props hp (d.name.length + 1 + p.name.length + 2))
    unfold devPropPiece Piece.Ok
    rw [hwords.domainOf,hwords.toList]
    rw [← hname] at hst
    simpa using hst
  · exact junk_deviceAttHeader ⟨w,f,m,hw,hf,hm,hname⟩
  · have hne : a.properties ≠ [] := List.ne_nil_of_mem hp
    obtain ⟨hfs,hms⟩ := hwords.noStar (hpath (Or.inr ⟨a,ha,hne⟩))
    have hst := statement_devAtt hw hf hfs hm hms (h.attNames a ha) (hr.attNames a ha hne)
      ((h.attProps a ha).names p hp) ((h.attProps a ha).text (hr.attProps a ha) hp
        (d.name.length + 1 + a.attributeName.length + 2 + p.name.length + 2))
    unfold devAttPiece Piece.Ok
    rw [hwords.domainOf,hwords.toList]
    rw [← hname] at hst
    simpa using hst

/-- A device name in quotes is read as it is. -/
theorem written_devName {n : String} (h : DevName n) : Written (quotedName n) n := by
  obtain ⟨w,f,m,hw,hf,hm,rfl⟩ := h
  obtain ⟨c,l,hl⟩ := List.exists_cons_of_ne_nil hw.nonempty
  have hlist : (w ++ "/" ++ f ++ "/" ++ m).toList = w.toList ++ '/' :: (f.toList ++ '/' :: m.toList) := by
    simp only [String.toList_append,List.append_assoc]
    rfl
  have hchars : ∀ x ∈ (w ++ "/" ++ f ++ "/" ++ m).toList, x ≠ '"' ∧ x ≠ '\\' ∧ x ≠ '\x00' := by
    have hplain : ∀ u : String, NameOk u → ∀ x ∈ u.toList, x ≠ '"' ∧ x ≠ '\\' ∧ x ≠ '\x00' := by
      intro u hu x hx
      have hs := plainChar_spec (hu.plain x hx)
      exact ⟨hs.2.2.2.2.2.2,hs.2.2.2.2.1,(quiet_name hu x hx).2⟩
    intro x hx
    rw [hlist] at hx
    simp only [List.mem_append,List.mem_cons] at hx
    rcases hx with hx | rfl | hx | rfl | hx
    · exact hplain w hw x hx
    · decide
    · exact hplain f hf x hx
    · decide
    · exact hplain m hm x hx
  have hlong : 5 ≤ (w ++ "/" ++ f ++ "/" ++ m).toList.length := by
    have h1 := List.length_pos_of_ne_nil hw.nonempty
    have h2 := List.length_pos_of_ne_nil hf.nonempty
    have h3 := List.length_pos_of_ne_nil hm.nonempty
    rw [hlist]
    simp only [List.length_append,List.length_cons]
    omega
  have hne : ∀ u : String, u.toList.length < 5 → w ++ "/" ++ f ++ "/" ++ m ≠ u := by
    rintro u hu rfl
    omega
  refine ⟨?_,?_⟩
  · unfold classLex
    rw [if_neg (hne "" (by decide)),if_neg (hne "/" (by decide)),if_neg (hne "\\" (by decide)),
      if_neg (hne "," (by decide)),if_neg (hne ":" (by decide)),if_neg (hne "->" (by decide))]
  · intro b c t hb _
    have hread := readFullWord_quoted hb (List.ne_nil_of_length_pos (by omega))
      (fun x hx => (hchars x hx).2) (c :: t)
    rw [escape_of_no_quote (fun hm => (hchars '"' hm).1 rfl),String.ofList_toList] at hread
    unfold quotedName
    simpa using hread

theorem valuesText_devices {ds : List String} (hne : ds ≠ []) (h : ∀ d ∈ ds, DevName d) (margin : Nat) :
    ValuesText (deviceNames margin ds) ds := by
  obtain ⟨v,vs,rfl⟩ := List.exists_cons_of_ne_nil hne
  exact valuesText_written (fun u hu => written_devName (h u hu)) margin

/-- Every part of the file is a statement, or spaces and comments. -/
theorem ok_filePieces {s : TServer} (h : FileStore s) (hr : Readable s) : ∀ q ∈ filePieces s, q.Ok := by
  intro q hq
  simp only [filePieces,List.mem_cons,List.mem_append,List.mem_flatMap,List.not_mem_nil,or_false] at hq
  rcases hq with ⟨c,hc,rfl⟩ | rfl | ⟨c,hc,hq⟩ | rfl | ⟨d,hd,hq⟩ | rfl | ⟨o,ho,p,hp,rfl⟩
  · have hdevs : ∀ n ∈ c.devices, DevName n := by
      intro n hn
      have hm := h.linked.subset (List.mem_flatMap.mpr ⟨c,hc,hn⟩)
      obtain ⟨d,hd,rfl⟩ := List.mem_map.mp hm
      exact h.deviceNames d hd
    exact statement_devices h.name h.instanceName hr.instanceName (h.classNames c hc) (hr.classNames c hc)
      (valuesText_devices (h.classDevices c hc) hdevs _)
  · exact junk_newline
  · exact ok_classPieces (h.classNames c hc) (hr.classNames c hc) (h.classOwners c hc) (hr.classOwners c hc) q hq
  · exact junk_newline
  · exact ok_devicePieces (h.deviceNames d hd) (h.deviceOwners d hd) (hr.deviceOwners d hd)
      (hr.devicePaths d hd) (hr.deviceDomains d hd) q hq
  · exact junk_freeHeader
  · have hne : o.properties ≠ [] := List.ne_nil_of_mem hp
    exact statement_freeProp (h.freeNames o ho) (hr.freeNames o ho hne) ((h.freeProps o ho).names p hp)
      ((h.freeProps o ho).text (hr.freeProps o ho) hp _)

end Statements

end CppTango.Db
