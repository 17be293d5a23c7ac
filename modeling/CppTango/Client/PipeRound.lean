import CppTango.Client.PipeValues

namespace CppTango.Client.Pipe

open CppTango.Lib

section Kept

/-- The blobs in an item are built, and not empty. -/
def Item.Ready : Item → Prop
  | .datum _ => True
  | .blob _ names byName puts => ∃ es, build names byName (insertedAll puts) = some es ∧ es ≠ []

/-- An element keeps the item that was put into it last; its value is one that an insertion makes. -/
structure Keeps (last : Option Item) (e : DevPipeDataElt) : Prop where
  typed : e.value = .unionNoData ∨ ∃ s, e.value = .seq s
  datum : ∀ x, last = some (.datum x) → e.value = x.value
  blob : ∀ name names byName puts, last = some (.blob name names byName puts) →
    e.innerBlobName = cString name ∧ build names byName (insertedAll puts) = some e.innerBlob ∧ e.innerBlob ≠ []

variable {last : Option Item} {e : DevPipeDataElt} {x : Item}

theorem Datum.value_seq (x : Datum) : ∃ s, x.value = .seq s := by
  cases x <;> exact ⟨_,rfl⟩

theorem keeps_empty (name : String) : Keeps none (DevicePipeBlob.emptyElt name) where
  typed := .inl rfl
  datum _ h := nomatch h
  blob _ _ _ _ h := nomatch h

theorem Keeps.put (hr : x.Ready) (h : Keeps last e) : Keeps (some x) (e.put x.inserted) := by
  cases x with
  | datum x =>
    rw [Item.inserted]
    refine ⟨.inr x.value_seq,fun y hy => ?_,nofun⟩
    obtain rfl : x = y := by simpa using hy
    rfl
  | blob name names byName puts =>
    obtain ⟨es,hb,hne⟩ := hr
    rw [Item.inserted,hb]
    refine ⟨h.typed,nofun,fun name' names' byName' puts' hy => ?_⟩
    obtain ⟨rfl,rfl,rfl,rfl⟩ : name = name' ∧ names = names' ∧ byName = byName' ∧ puts = puts' := by
      simpa using hy
    exact ⟨rfl,hb,hne⟩

theorem put_name (x : Inserted) (e : DevPipeDataElt) : (e.put x).name = e.name := by
  rcases x with x | ⟨name,_ | es⟩ <;> rfl

end Kept

section Runs

/-- A blob under construction: its elements have the names, and each keeps what was put into it last. -/
structure Staged (names : List String) (byName : Bool) (last : Nat → Option Item) (done : Nat) (b : Blob)
    (es : Elts) : Prop where
  array : b.insertEltArray = some es
  apart : b.extractEltArray = none
  called : es.map DevPipeDataElt.name = names.map cString
  keeps : ∀ i e, es[i]? = some e → Keeps (last i) e
  idle : b.insertInd = -1
  ordered : byName = false → b.insertCtr = done
  bracketed : byName = true → b.insertCtr ≤ 0

variable {names : List String} {byName : Bool} {last : Nat → Option Item} {done i : Nat} {b : Blob} {es : Elts}
  {x : Item} {na : String}

theorem Staged.length (h : Staged names byName last done b es) : es.length = names.length := by
  have := congrArg List.length h.called
  rwa [List.length_map,List.length_map] at this

theorem indFromName_map (es : Elts) (na : String) : DevicePipeBlob.indFromName es na =
    (es.map DevPipeDataElt.name).findIdx? (fun n => Device.lowerName n = Device.lowerName na) := by
  rw [List.findIdx?_map]
  rfl

theorem Staged.indFromName (h : Staged names byName last done b es) (na : String) :
    DevicePipeBlob.indFromName es na =
      DevicePipeBlob.indFromName (names.map (fun n => DevicePipeBlob.emptyElt (cString n))) na := by
  rw [indFromName_map,indFromName_map,h.called,List.map_map]
  rfl

theorem indFromName_lt (h : DevicePipeBlob.indFromName es na = some i) : i < es.length :=
  (List.findIdx?_eq_some_iff_findIdx_eq.mp h).1

theorem put_at (hr : x.Ready) (ha : b.insertEltArray = some es) (hi : b.insertAt (some es.length) = .ok (i : Int)) :
    put x.inserted b =
      ({ (b.noted none).inserted with insertEltArray := some (es.modify i (DevPipeDataElt.put x.inserted)) },none) := by
  have hn : ¬ (i : Int) < 0 := by omega
  cases x with
  | datum x => simp only [put,Item.inserted,ha,Option.map_some,hi,if_neg hn,Int.toNat_natCast]
  | blob name names byName puts =>
    obtain ⟨es',hb,-⟩ := hr
    simp only [put,Item.inserted,ha,hb,Option.map_some,hi,if_neg hn,Int.toNat_natCast]

/-- What the elements keep after an item is put into one of them. -/
theorem keeps_modify (h : ∀ i e, es[i]? = some e → Keeps (last i) e) (hr : x.Ready) (i j : Nat) (e : DevPipeDataElt)
    (he : (es.modify i (DevPipeDataElt.put x.inserted))[j]? = some e) :
    Keeps (Function.update last i (some x) j) e := by
  rw [List.getElem?_modify] at he
  by_cases hj : i = j
  · subst hj
    rw [Function.update_self]
    obtain ⟨e',he',rfl⟩ : ∃ e', es[i]? = some e' ∧ e'.put x.inserted = e := by simpa using he
    exact (h i e' he').put hr
  · rw [Function.update_of_ne (Ne.symm hj)]
    exact h j e (by simpa [hj] using he)

theorem called_modify {f : DevPipeDataElt → DevPipeDataElt} (hf : ∀ e, (f e).name = e.name) (i : Nat) (es : Elts) :
    (es.modify i f).map DevPipeDataElt.name = es.map DevPipeDataElt.name := by
  refine List.ext_getElem? fun j => ?_
  rw [List.getElem?_map,List.getElem?_map,List.getElem?_modify,Option.map_eq_map,Option.map_map]
  refine congrArg (Option.map · _) (funext fun e => ?_)
  show DevPipeDataElt.name (if i = j then f e else e) = e.name
  split
  · exact hf e
  · rfl

theorem inserted_ordered (h : b.insertInd = -1) : b.inserted = { b with insertCtr := b.insertCtr + 1 } :=
  if_neg (not_not.mpr h)

theorem inserted_bracketed (h : b.insertInd ≠ -1) : b.inserted = { b with insertInd := -1 } := if_pos h

/-- One insertion in order. -/
theorem Staged.put_next (h : Staged names false last done b es) (hr : x.Ready) (hd : done < names.length) :
    ∃ b' es', put x.inserted b = (b',none) ∧
      Staged names false (Function.update last done (some x)) (done + 1) b' es' := by
  have hc := h.ordered rfl
  have hl := h.length
  have hi : b.insertAt (some es.length) = .ok (done : Int) := by
    have h1 : ¬ (b.insertCtr = -1 ∧ b.insertInd = -1) := by omega
    have h2 : ¬ (es.length = 0 ∨ b.insertCtr > es.length - 1) := by omega
    rw [DevicePipeBlob.insertAt,if_neg h1,if_neg h2,if_neg (not_not.mpr h.idle),hc]
  refine ⟨_,es.modify done (DevPipeDataElt.put x.inserted),put_at hr h.array hi,?_⟩
  rw [inserted_ordered (show (b.noted none).insertInd = -1 from h.idle)]
  exact {
    array := rfl
    apart := h.apart
    called := (called_modify (put_name _) done es).trans h.called
    keeps := keeps_modify h.keeps hr done
    idle := h.idle
    ordered _ := by show b.insertCtr + 1 = _; omega
    bracketed := nofun }

/-- One `[]` with its insertion. -/
theorem Staged.put_named (h : Staged names true last done b es) (hr : x.Ready)
    (hf : DevicePipeBlob.indFromName es na = some i) :
    ∃ b' b'' es', named na b = some b' ∧ put x.inserted b' = (b'',none) ∧
      Staged names true (Function.update last i (some x)) done b'' es' := by
  have hc : ¬ b.insertCtr > 0 := by have := h.bracketed rfl; omega
  have hlt := indFromName_lt hf
  have hn : named na b = some { b with insertCtr := -1, insertInd := i } := by
    simp only [named,DevicePipeBlob.index,h.apart,h.array,DevicePipeBlob.getExtractInd,DevicePipeBlob.getInsertInd,
      if_neg hc,hf]
  have h3 : (i : Int) ≠ -1 := by omega
  have hi : DevicePipeBlob.insertAt { b with insertCtr := -1, insertInd := (i : Int) } (some es.length) =
      .ok (i : Int) := by
    have h1 : ¬ ((-1 : Int) = -1 ∧ (i : Int) = -1) := by omega
    have h2 : ¬ (es.length = 0 ∨ (-1 : Int) > es.length - 1) := by omega
    rw [DevicePipeBlob.insertAt,if_neg h1,if_neg h2,if_pos h3]
  refine ⟨_,_,es.modify i (DevPipeDataElt.put x.inserted),hn,put_at hr h.array hi,?_⟩
  rw [inserted_bracketed
    (show (DevicePipeBlob.noted none { b with insertCtr := -1, insertInd := (i : Int) }).insertInd ≠ -1 from h3)]
  exact {
    array := rfl
    apart := h.apart
    called := (called_modify (put_name _) i es).trans h.called
    keeps := keeps_modify h.keeps hr i
    idle := rfl
    ordered := nofun
    bracketed _ := by show (-1 : Int) ≤ 0; omega }

/-- Insertions in order, from the element after those that are done. -/
theorem Staged.putAll_ordered : ∀ {puts : List (String × Item)} {last : Nat → Option Item} {done : Nat} {b : Blob}
    {es : Elts}, Staged names false last done b es → (∀ p ∈ puts, p.2.Ready) →
    done + puts.length ≤ names.length →
    ∃ b' es', putAll false (insertedAll puts) b = some b' ∧
      Staged names false (writeAll ((puts.zipIdx done).map (fun p => (p.2,some p.1.2))) last)
        (done + puts.length) b' es'
  | [],_,_,b,es,h,_,_ => ⟨b,es,by simp [insertedAll,putAll],h⟩
  | (na,x) :: puts,last,done,b,es,h,hr,hl => by
    rw [List.length_cons] at hl
    obtain ⟨b1,es1,hp,h1⟩ := h.put_next (hr _ List.mem_cons_self) (by omega)
    obtain ⟨b2,es2,hps,h2⟩ := h1.putAll_ordered (fun p hm => hr p (List.mem_cons_of_mem _ hm)) (by omega)
    refine ⟨b2,es2,?_,?_⟩
    · simpa [insertedAll,putAll,hp] using hps
    · rw [List.length_cons,show done + (puts.length + 1) = done + 1 + puts.length by omega]
      exact h2

/-- Insertions by name. -/
theorem Staged.putAll_bracketed : ∀ {puts : List (String × Item)} {last : Nat → Option Item} {b : Blob}
    {es : Elts}, Staged names true last done b es → (∀ p ∈ puts, p.2.Ready) →
    (∀ p ∈ puts, (DevicePipeBlob.indFromName
      (names.map (fun n => DevicePipeBlob.emptyElt (cString n))) p.1).isSome = true) →
    ∃ b' es', putAll true (insertedAll puts) b = some b' ∧
      Staged names true (writeAll ((places names true puts).map (fun p => (p.1,some p.2))) last) done b' es'
  | [],_,b,es,h,_,_ => ⟨b,es,by simp [insertedAll,putAll],h⟩
  | (na,x) :: puts,last,b,es,h,hr,hf => by
    obtain ⟨i,hi⟩ := Option.isSome_iff_exists.mp (hf _ List.mem_cons_self)
    obtain ⟨b1,b2,es2,hn,hp,h2⟩ := h.put_named (hr _ List.mem_cons_self) ((h.indFromName na).trans hi)
    obtain ⟨b3,es3,hps,h3⟩ := h2.putAll_bracketed (fun p hm => hr p (List.mem_cons_of_mem _ hm))
      (fun p hm => hf p (List.mem_cons_of_mem _ hm))
    refine ⟨b3,es3,?_,?_⟩
    · simpa [insertedAll,putAll,hn,hp] using hps
    · simpa [places,hi,writeAll] using h3

/-- The array of the elements before the insertions. -/
theorem staged_new (byName : Bool) (hd : (names.map Device.lowerName).Nodup) :
    ∃ es, DevicePipeBlob.namedElts names = .ok es ∧ Staged names byName (fun _ => none) 0
      { (DevicePipeBlob.new "" : Blob).restarted with insertEltArray := some es } es := by
  refine ⟨_,if_pos hd,?_⟩
  exact {
    array := rfl
    apart := rfl
    called := by rw [List.map_map]; rfl
    keeps i e he := by
      obtain ⟨n,-,rfl⟩ : ∃ n, names[i]? = some n ∧ DevicePipeBlob.emptyElt (cString n) = e := by simpa using he
      exact keeps_empty _
    idle := rfl
    ordered _ := rfl
    bracketed _ := Int.le_refl 0 }

/-- The array that is built has an element for each name, and each keeps what was put into it last. -/
structure Built (names : List String) (byName : Bool) (puts : List (String × Item)) (es : Elts) : Prop where
  built : build names byName (insertedAll puts) = some es
  called : es.map DevPipeDataElt.name = names.map cString
  keeps : ∀ i e, es[i]? = some e → Keeps (lasts names byName puts i) e

theorem build_built {puts : List (String × Item)} (hf : Filled names byName puts) (hr : ∀ p ∈ puts, p.2.Ready) :
    ∃ es, Built names byName puts es := by
  obtain ⟨es,hn,h⟩ := staged_new byName hf.distinct
  cases byName with
  | false =>
    have hl := hf.inOrder rfl
    obtain ⟨b',es',hp,h'⟩ := h.putAll_ordered hr (by omega)
    refine ⟨es',?_,h'.called,?_⟩
    · simp only [build,hn,hp,Option.bind_some,h'.array]
    · rw [lasts,places,if_neg Bool.false_ne_true,List.map_map]
      exact h'.keeps
  | true =>
    obtain ⟨b',es',hp,h'⟩ := h.putAll_bracketed hr (hf.found rfl)
    refine ⟨es',?_,h'.called,h'.keeps⟩
    simp only [build,hn,hp,Option.bind_some,h'.array]

mutual

/-- The blobs of a valid tree can be built. -/
theorem Item.ready : ∀ x : Item, x.Valid → x.Ready
  | .datum _,_ => trivial
  | .blob _ names byName puts,h => by
    rw [Item.Valid] at h
    obtain ⟨es,hb⟩ := build_built h.1 (ready_all puts h.2)
    refine ⟨es,hb.built,?_⟩
    rintro rfl
    exact h.1.some (List.map_eq_nil_iff.mp hb.called.symm)

theorem ready_all : ∀ puts : List (String × Item), ValidAll puts → ∀ p ∈ puts, p.2.Ready
  | [],_,_,hm => absurd hm List.not_mem_nil
  | (_,x) :: rest,h,p,hm => by
    rw [ValidAll] at h
    obtain rfl | hm := List.mem_cons.mp hm
    · exact x.ready h.1
    · exact ready_all rest h.2 p hm

end

end Runs

section Looks

variable {item : Item} {e : DevPipeDataElt} {t : ExtractType}

theorem seqValue_self (k : SeqKind) (xs : List (Elt k)) : seqValue k (.seq ⟨k,xs⟩) = some xs := by
  simp [seqValue]

/-- What an element gives to an extraction with the type inserted: strings end at their first NUL. -/
def Item.kept : Item → Extracted
  | .datum (.scalar k x) => .scalar k (copied k x)
  | .datum (.devString x) => .scalar .string x
  | .datum (.vector k xs) => .array k (xs.map (copied k))
  | .datum (.seqRef k xs) | .datum (.seqPtr k xs) => .array k xs
  | .datum (.devStringVector xs) => .array .string xs
  | .blob name _ _ _ => .blob (cString name)

theorem Keeps.look_own (h : Keeps (some item) e) (ht : item.type = some t) : look t e = .got item.kept := by
  cases item with
  | datum x =>
    have hv := h.datum x rfl
    cases x with
    | scalar k x =>
      obtain rfl : ExtractType.scalar k = t := by simpa [Item.type] using ht
      simp only [look,hv,Datum.value,seqValue_self,Item.kept]
    | devString x =>
      obtain rfl : ExtractType.devString = t := by simpa [Item.type] using ht
      simp only [look,hv,Datum.value,seqValue_self,Item.kept]
    | vector k xs =>
      obtain ⟨hk,rfl⟩ : ∃ hk, ExtractType.vector k hk = t := by simpa [Item.type] using ht
      simp only [look,hv,Datum.value,seqValue_self,Item.kept]
    | devStringVector xs => simp [Item.type] at ht
    | seqRef k xs =>
      obtain rfl : ExtractType.seqPtr k = t := by simpa [Item.type] using ht
      simp only [look,hv,Datum.value,seqValue_self,Item.kept]
    | seqPtr k xs =>
      obtain rfl : ExtractType.seqPtr k = t := by simpa [Item.type] using ht
      simp only [look,hv,Datum.value,seqValue_self,Item.kept]
  | blob name names byName puts =>
    obtain rfl : ExtractType.blob = t := by simpa [Item.type] using ht
    obtain ⟨hn,-,hne⟩ := h.blob _ _ _ _ rfl
    simp only [look,if_neg (List.length_eq_zero_iff.not.mpr hne),hn,Item.kept]

theorem look_seqPtr (k : SeqKind) (xs : List (Elt k)) (hv : e.value = .seq ⟨k,xs⟩) :
    look (.seqPtr k) e = .got (.array k xs) := by
  simp only [look,hv,seqValue_self]

theorem look_scalar (k : SeqKind) (xs : List (Elt k)) (hv : e.value = .seq ⟨k,xs⟩) (f : Flag) :
    look (.scalar k) e ≠ .failed f := by
  simp only [look,hv,seqValue_self]
  cases xs <;> nofun

/-- Every element can be extracted with another type: a scalar as an array, an array as a scalar, a blob as a
`DevString` or, when a value was there before it, as an array. -/
theorem Keeps.look_other (h : Keeps (some item) e) : ∃ t, item.type ≠ some t ∧ ∀ f, look t e ≠ .failed f := by
  cases item with
  | datum x =>
    have hv := h.datum x rfl
    cases x with
    | scalar k x => exact ⟨.seqPtr k,nofun,fun f => by rw [look_seqPtr k _ hv]; nofun⟩
    | devString x => exact ⟨.seqPtr .string,nofun,fun f => by rw [look_seqPtr .string _ hv]; nofun⟩
    | vector k xs =>
      refine ⟨.scalar k,?_,look_scalar k _ hv⟩
      rw [Item.type]
      split <;> nofun
    | devStringVector xs => exact ⟨.scalar .string,nofun,look_scalar .string _ hv⟩
    | seqRef k xs => exact ⟨.scalar k,nofun,look_scalar k _ hv⟩
    | seqPtr k xs => exact ⟨.scalar k,nofun,look_scalar k _ hv⟩
  | blob name names byName puts =>
    obtain ⟨-,-,hne⟩ := h.blob _ _ _ _ rfl
    rcases h.typed with hv | ⟨⟨k,xs⟩,hv⟩
    · refine ⟨.devString,nofun,fun f => ?_⟩
      simp only [look,hv,seqValue,if_true,if_neg (List.length_eq_zero_iff.not.mpr hne)]
      nofun
    · exact ⟨.seqPtr k,nofun,fun f => by rw [look_seqPtr k _ hv]; nofun⟩

end Looks

section Reads

variable {names : List String} {byName : Bool} {puts : List (String × Item)} {es es' : Elts} {todo : Nat → Prop}
  {b : Blob} {i : Nat} {t : ExtractType} {item : Item}

/-- A blob that is being read: the elements still to be read are as they were received. -/
structure Reading (es : Elts) (todo : Nat → Prop) (b : Blob) (es' : Elts) : Prop where
  array : b.extractEltArray = some es'
  apart : b.insertEltArray = none
  called : es'.map DevPipeDataElt.name = es.map DevPipeDataElt.name
  same : ∀ i, todo i → es'[i]? = es[i]?

theorem left_name (t : ExtractType) (e : DevPipeDataElt) : (e.left t).name = e.name := by
  unfold DevPipeDataElt.left
  split
  · split <;> rfl
  · rfl

/-- What one extraction gives and leaves. -/
theorem Reading.take (h : Reading es todo b es') (hi : b.extractAt (some es'.length) = .ok (i : Int)) (ht : todo i)
    {e : DevPipeDataElt} (he : es[i]? = some e) {x : Extracted} (hg : look t e = .got x) :
    ∃ b', take t b = (b'.extracted,.got x) ∧ b'.extractCtr = b.extractCtr ∧ b'.extractInd = b.extractInd ∧
      Reading es (fun j => todo j ∧ j ≠ i) b' (es'.modify i (DevPipeDataElt.left t)) := by
  have hn : ¬ (i : Int) < 0 := by omega
  have he' : eltAt es' (i : Int) = some e := by rw [eltAt,if_neg hn]; exact (h.same i ht).trans he
  refine ⟨{ b.noted none with extractEltArray := some (es'.modify i (DevPipeDataElt.left t)) },?_,rfl,rfl,?_⟩
  · simp only [Pipe.take,h.array,Option.map_some,hi,Option.getD_some,he',hg,Int.toNat_natCast]
    rw [DevicePipeBlob.extracted,DevicePipeBlob.extracted]
    split <;> rfl
  · exact {
      array := rfl
      apart := h.apart
      called := (called_modify (left_name t) i es').trans h.called
      same j hj := by
        rw [List.getElem?_modify]
        simpa [Ne.symm hj.2] using h.same j hj.1 }

theorem Reading.length (h : Reading es todo b es') : es'.length = es.length := by
  have := congrArg List.length h.called
  rwa [List.length_map,List.length_map] at this

theorem Reading.of_fields (h : Reading es todo b es') (b' : Blob) (ha : b'.extractEltArray = b.extractEltArray)
    (hi : b'.insertEltArray = b.insertEltArray) : Reading es todo b' es' where
  array := ha.trans h.array
  apart := hi.trans h.apart
  called := h.called
  same := h.same

theorem Reading.mono {todo' : Nat → Prop} (h : Reading es todo b es') (hi : ∀ i, todo' i → todo i) :
    Reading es todo' b es' where
  array := h.array
  apart := h.apart
  called := h.called
  same i ht := h.same i (hi i ht)

end Reads

section Built

variable {names : List String} {byName : Bool} {puts : List (String × Item)} {es : Elts}

theorem Built.elt (h : Built names byName puts es) {i : Nat} {item : Item} (hi : i < es.length)
    (hl : lasts names byName puts i = some item) : ∃ e, es[i]? = some e ∧ Keeps (some item) e := by
  refine ⟨es[i],List.getElem?_eq_getElem hi,?_⟩
  rw [← hl]
  exact h.keeps i _ (List.getElem?_eq_getElem hi)

theorem Built.length (h : Built names byName puts es) : es.length = names.length := by
  have := congrArg List.length h.called
  rwa [List.length_map,List.length_map] at this

theorem described_length (es : Elts) : described (some es) es.length = .error .outside := by
  simp [described]

theorem refused_name_iff (es : Elts) (i : Nat) :
    Refused (getDataEltName (some es) i) ↔ getDataEltNb (some es) none < i := by
  show Refused ((described (some es) i).map DevPipeDataElt.name) ↔ es.length < i
  rcases Nat.lt_trichotomy i es.length with h | rfl | h
  · simp [described,Nat.not_lt_of_lt h,h,Refused,Except.map]
  · simp [described_length,Refused,Except.map]
  · simp [described,h,Refused,Except.map,indexAbove]

/-- Blobs are built and keep what is inserted; but no blob refuses the extraction of its elements with every other
type, and none refuses the index behind its last element. -/
theorem wrong_types_extracted (names : List String) (byName : Bool) (puts : List (String × Item))
    (filled : Filled names byName puts) (valid : ValidAll puts) :
    (∃ es, build names byName (insertedAll puts) = some es ∧ es.length = names.length ∧
      (∀ i item, i < names.length → lasts names byName puts i = some item →
        ∃ e, es[i]? = some e ∧ (∀ t, item.type = some t → look t e = .got item.kept) ∧
          ∃ t, item.type ≠ some t ∧ ∀ f, look t e ≠ .failed f) ∧
      ∀ i, Refused (getDataEltName (some es) i) ↔ getDataEltNb (some es) none < i) ∧
    ¬ RoundTrips names byName puts := by
  obtain ⟨es,h⟩ := build_built filled (ready_all puts valid)
  refine ⟨⟨es,h.built,h.length,fun i item hi hl => ?_,refused_name_iff es⟩,fun hall => ?_⟩
  · obtain ⟨e,he,hk⟩ := h.elt (h.length ▸ hi) hl
    exact ⟨e,he,fun t ht => hk.look_own ht,hk.look_other⟩
  · obtain ⟨es',hb,hr⟩ := hall _ _ _ (.self names byName puts)
    obtain rfl : es = es' := Option.some.inj (h.built.symm.trans hb)
    have hpos : 0 < names.length := List.length_pos_iff.mpr filled.some
    obtain ⟨item,hl⟩ := Option.isSome_iff_exists.mp (filled.all 0 hpos)
    obtain ⟨e,he,hk⟩ := h.elt (h.length ▸ hpos) hl
    obtain ⟨t,ht,hother⟩ := hk.look_other
    obtain ⟨f,hf⟩ := hr.others 0 item e t hl he ht
    exact hother f hf

/-- A short in the only element of a blob. -/
def oneShort : List (String × Item) := [("temp",.datum (.scalar .short 5))]

theorem oneShort_filled : Filled ["temp"] false oneShort where
  some := by simp
  distinct := by simp
  found := nofun
  inOrder _ := rfl
  all i hi := by
    obtain rfl : i = 0 := by simpa using hi
    rfl

theorem oneShort_valid : ValidAll oneShort := by
  simp [oneShort,ValidAll,Item.Valid,Item.type]

theorem wrong_types_extracted_short : ¬ RoundTrips ["temp"] false oneShort :=
  (wrong_types_extracted _ _ _ oneShort_filled oneShort_valid).2

/-- The short is extracted as an array. -/
theorem short_extracted_as_array : Filled ["temp"] false oneShort ∧ ValidAll oneShort ∧
    ¬ RoundTrips ["temp"] false oneShort := by
  refine ⟨oneShort_filled,oneShort_valid,fun h => ?_⟩
  obtain ⟨es,hb,hr⟩ := h _ _ _ (.self ["temp"] false oneShort)
  have hbuilt : build ["temp"] false (insertedAll oneShort) =
      some [⟨"temp",.seq ⟨.short,[(5 : Elt .short)]⟩,[],scalarPipe⟩] := by
    simp only [oneShort,insertedAll,Item.inserted]
    rfl
  obtain rfl := Option.some.inj (hbuilt.symm.trans hb)
  obtain ⟨f,hf⟩ := hr.others 0 _ _ (.seqPtr .short) rfl rfl nofun
  rw [look_seqPtr .short _ rfl] at hf
  exact nomatch hf

end Built

end CppTango.Client.Pipe
