import CppTango.Db.FileGrammar

namespace CppTango.Db

open CppTango.Lib CppTango.Device

section Model

/-- The loop of `parse_res_file` as the constructor sees it: an error that is returned as a text ends
it with what the server has so far. The text is what is left to read. -/
def openLoop : Nat → TServer → String → Text → Except ParseError (TServer × Text)
  | 0,_,_,_ => .error .unfinished
  | n + 1,s,word,t =>
    match readStatement word t with
    | .error (e,left) => if e.returned then .ok (s,left) else .error e
    | .ok (st,word,t) => do
      let s ← st.apply s
      if word = lexicalWordNull then .ok (s,t) else openLoop n s word t

/-- The constructor of `FileDatabase`; it does not look at the text that is returned. -/
def fileDatabase (file : Text) : Except ParseError (TServer × Text) := do
  let (word,t) ← readWord (streamOf file)
  if word = "" then .ok (newServer,t)
  else openLoop (file.length + 1) { newServer with name := word } word t

/-- The statements of a file, whatever server they are for. -/
def statementsFrom : Nat → String → Text → List FileStatement
  | 0,_,_ => []
  | n + 1,word,t =>
    match readStatement word t with
    | .error _ => []
    | .ok (st,word,t) => st :: (if word = lexicalWordNull then [] else statementsFrom n word t)

def statementsOf (file : Text) : List FileStatement :=
  match readWord (streamOf file) with
  | .error _ => []
  | .ok (word,t) => if word = "" then [] else statementsFrom (file.length + 1) word t

end Model

section Stream

/-- The first word leaves at most one character more than the file has. -/
theorem length_first {file t : Text} {word : String} (h : readWord (streamOf file) = .ok (word,t)) :
    t.length ≤ file.length + 1 := by
  have hjump : jumpSpace (streamOf file) = jumpSpace (file ++ [file.getLastD ' ']) := rfl
  unfold readWord at h
  have hle := ((readToken_yields _).of_ok h).le
  have h1 := length_jumpComments_le (streamOf file).length (jumpSpace (streamOf file))
  have h2 : (jumpSpace (streamOf file)).length ≤ (file ++ [file.getLastD ' ']).length := by
    rw [hjump]
    exact length_dropWhile_le _
  rw [List.length_append,List.length_singleton] at h2
  simp only at hle
  omega

end Stream

section Server
variable {s s' : TServer} {st : FileStatement}

/-- The names of the devices that the server has. -/
def namesOfDevices (s : TServer) : List String := s.devices.map TDevice.name

def Declared (names : List String) (device : String) : Prop :=
  names.any (fun name => equalsIgnoreCase name device) = true

/-- The devices that a statement declares. -/
def FileStatement.declares : FileStatement → List String
  | .define _ _ devices => devices
  | _ => []

/-- The device whose attribute a statement has a property for. -/
def FileStatement.attDevice : FileStatement → Option String
  | .devAttProp device _ _ => some device
  | _ => none

/-- The device of an attribute property is there. -/
def FileStatement.Fits (names : List String) (st : FileStatement) : Prop :=
  ∀ device, st.attDevice = some device → Declared names device

/-- Every statement for an attribute of a device comes behind the one that declares the device. -/
def DeclaredFrom (names : List String) : List FileStatement → Prop
  | [] => True
  | st :: sts => st.Fits names ∧ DeclaredFrom (names ++ st.declares) sts

theorem namesOfDevices_update {p : TDevice → Bool} {f : TDevice → TDevice} (hf : ∀ d, (f d).name = d.name) :
    (updateFirst p f s.devices).map TDevice.name = namesOfDevices s := keys_updateFirst hf

theorem declared_iff {device : String} : Declared (namesOfDevices s) device ↔
    s.devices.any (fun d => equalsIgnoreCase d.name device) = true := by
  unfold Declared namesOfDevices
  rw [List.any_map]
  rfl

/-- What a statement does to the names of the devices, and when it uses one that is not there. -/
theorem apply_yields (s : TServer) (st : FileStatement) :
    Yields (fun s' => namesOfDevices s' = namesOfDevices s ++ st.declares ∧ st.Fits (namesOfDevices s))
      (fun e => e = .nullDevice ∧ ¬ st.Fits (namesOfDevices s)) (st.apply s) := by
  cases st with
  | define instanceName className devices =>
    refine ⟨?_,fun _ h => by cases h⟩
    simp only [namesOfDevices,defineClass,List.map_append,List.map_map,FileStatement.declares]
    congr 1
    exact List.map_id _
  | devAttProp device att p =>
    simp only [FileStatement.apply,addDevAttProp]
    by_cases hd : s.devices.any (fun d => equalsIgnoreCase d.name device) = true
    · rw [if_pos hd]
      refine ⟨?_,?_⟩
      · simp only [FileStatement.declares,List.append_nil]
        exact namesOfDevices_update (fun _ => rfl)
      · rintro _ ⟨⟩
        exact declared_iff.mpr hd
    · rw [if_neg hd]
      exact ⟨rfl,fun h => hd (declared_iff.mp (h device rfl))⟩
  | devProp device p =>
    refine ⟨?_,fun _ h => by cases h⟩
    simp only [FileStatement.declares,List.append_nil]
    exact namesOfDevices_update (fun _ => rfl)
  | classAttProp className att p => exact ⟨(List.append_nil _).symm,fun _ h => by cases h⟩
  | classProp className p => exact ⟨(List.append_nil _).symm,fun _ h => by cases h⟩
  | freeProp object p => exact ⟨(List.append_nil _).symm,fun _ h => by cases h⟩

end Server

section Safety
variable {s : TServer} {word : String} {t : Text}

/-- The parser ends: it returns, perhaps with a text, or throws `API_DatabaseFileError`. -/
def EndsSafely {α : Type} (x : Except ParseError α) : Prop :=
  Yields (fun _ => True) (fun e => e.thrown = true ∨ e.returned = true) x

theorem parseLoop_safe (n : Nat) (hn : t.length < 2 * n) :
    EndsSafely (parseLoop n s word t) ↔ DeclaredFrom (namesOfDevices s) (statementsFrom n word t) := by
  induction n generalizing s word t with
  | zero => exact absurd hn (Nat.not_lt_zero _)
  | succ n ih =>
    have hspec := readStatement_yields word t
    rw [parseLoop,parseStatement_eq,statementsFrom]
    cases hr : readStatement word t with
    | error e => exact iff_of_true (hspec.of_error hr) trivial
    | ok x =>
      obtain ⟨st,word',t'⟩ := x
      have hlen := hspec.of_ok hr
      have happly := apply_yields s st
      simp only at hlen ⊢
      unfold applied
      simp only
      cases hs : st.apply s with
      | error e =>
        obtain ⟨rfl,hno⟩ := happly.of_error hs
        exact iff_of_false (by rintro (h | h) <;> cases h) (fun h => hno h.1)
      | ok s' =>
        obtain ⟨hnames,hfits⟩ := happly.of_ok hs
        simp only [Except.map,bind,Except.bind,DeclaredFrom]
        split
        · exact iff_of_true trivial ⟨hfits,trivial⟩
        · rw [ih (by omega),hnames]
          exact ⟨fun h => ⟨hfits,h⟩,fun h => h.2⟩

/-- `parse_res_file` ends on a file, and never uses a device that was not found, exactly when every
property of an attribute of a device comes behind the statement that declares the device. -/
theorem parse_ends_safely_iff (file : Text) :
    EndsSafely (parseResFile file) ↔ DeclaredFrom [] (statementsOf file) := by
  have hspec := readWord_yields (streamOf file)
  unfold parseResFile statementsOf
  cases hr : readWord (streamOf file) with
  | error e => exact iff_of_true (Or.inl (hspec.of_error hr)) trivial
  | ok x =>
    obtain ⟨word,t⟩ := x
    have hlen := length_first hr
    simp only [bind,Except.bind]
    split
    · exact iff_of_true (Or.inr rfl) trivial
    · exact parseLoop_safe _ (by omega)

/-- A property of an attribute of a device that the file does not declare. -/
theorem undeclared_device_used :
    parseResFile "sys/motor/1/Speed->unit: mm\n".toList = .error .nullDevice := by decide +kernel

end Safety

section Refused
variable {t left : Text} {e : ParseError} {α β : Type}

/-- Behind four names stands neither a colon nor an arrow. -/
def RefusedFour (t left : Text) : Prop :=
  ∃ name u sep, expect .string t = .ok (name,u) ∧ readWord u = .ok (sep,left) ∧
    classLex sep ≠ .colon ∧ classLex sep ≠ .arrow

/-- Behind three names stands neither a slash nor an arrow, or a fourth name is refused. -/
def RefusedThree (t left : Text) : Prop :=
  ∃ member u sep u', expect .string t = .ok (member,u) ∧ readWord u = .ok (sep,u') ∧
    match classLex sep with
    | .slash => RefusedFour u' left
    | .arrow => False
    | _ => left = u'

/-- A property of two names that is none of a class or of a free object. -/
def RefusedTwo (domain : String) (t left : Text) : Prop :=
  ∃ member u sep u' values word, expect .string t = .ok (member,u) ∧ readWord u = .ok (sep,u') ∧
    parseResourceValue sep u' = .ok (values,word,left) ∧
    equalsIgnoreCase domain "class" = false ∧ equalsIgnoreCase domain "free" = false

/-- A statement that is refused with a text that is returned, and what is left behind it. -/
def Refused (word : String) (t left : Text) : Prop :=
  if classLex word = .string then
    ∃ slash u family u' sep u'', expect .slash t = .ok (slash,u) ∧ expect .string u = .ok (family,u') ∧
      readWord u' = .ok (sep,u'') ∧
      match classLex sep with
      | .slash => RefusedThree u'' left
      | .arrow => RefusedTwo word u'' left
      | _ => left = u''
  else left = t

/-- A reading ends with an error that is returned. -/
def ReturnsAt (left : Text) (x : Reading α) : Prop := ∃ e, x = .error (e,left) ∧ e.returned = true

theorem not_returned (h : e.thrown = true) : e.returned = false := by
  cases e with
  | badLex => rfl
  | stringTooLong => rfl
  | _ => cases h

/-- What is thrown is not returned: an error that is returned comes from what follows. -/
theorem returnsAt_bind {x : Except ParseError α} {f : α → Reading β} {post : α → Prop}
    (hx : Yields post (fun e => e.thrown = true) x) :
    ReturnsAt left (atText t x >>= f) ↔ ∃ a, x = .ok a ∧ ReturnsAt left (f a) := by
  cases x with
  | error e =>
    have hno := not_returned hx
    refine iff_of_false ?_ ?_
    · rintro ⟨e',he,hr⟩
      cases he
      rw [hno] at hr
      cases hr
    · rintro ⟨a,ha,-⟩
      cases ha
  | ok a =>
    constructor
    · intro h
      exact ⟨a,rfl,h⟩
    · rintro ⟨a',ha,h⟩
      cases ha
      exact h

theorem not_returnsAt_pure {a : α} : ¬ ReturnsAt left (pure a : Reading α) := by
  rintro ⟨e,he,-⟩
  cases he

theorem returnsAt_throw (he : e.returned = true) : ReturnsAt left (throw (e,t) : Reading α) ↔ left = t := by
  constructor
  · rintro ⟨e',h,-⟩
    cases h
    rfl
  · rintro rfl
    exact ⟨e,rfl,he⟩

theorem not_returnsAt_bind {x : Except ParseError α} {f : α → Reading β} {post : α → Prop}
    (hx : Yields post (fun e => e.thrown = true) x) (hf : ∀ a, ¬ ReturnsAt left (f a)) :
    ¬ ReturnsAt left (atText t x >>= f) := by
  rw [returnsAt_bind hx]
  rintro ⟨a,-,h⟩
  exact hf a h

theorem refusedFour_iff (domain family member : String) (t : Text) :
    ReturnsAt left (readFour domain family member t) ↔ RefusedFour t left := by
  unfold readFour RefusedFour
  constructor
  · intro h
    obtain ⟨⟨name,u⟩,h1,h⟩ := (returnsAt_bind (expect_yields .string t)).mp h
    obtain ⟨⟨sep,u'⟩,h2,h⟩ := (returnsAt_bind (readWord_yields u)).mp h
    refine ⟨name,u,sep,h1,?_⟩
    simp only at h
    cases hs : classLex sep with
    | colon =>
      rw [hs] at h
      exact absurd h (not_returnsAt_bind (parseResourceValue_yields sep u') (fun _ => not_returnsAt_pure))
    | arrow =>
      rw [hs] at h
      exact absurd h (not_returnsAt_bind (parseProp_yields u') (fun _ => not_returnsAt_pure))
    | _ =>
      rw [hs] at h
      rw [(returnsAt_throw (by rfl)).mp h]
      exact ⟨h2,by decide,by decide⟩
  · rintro ⟨name,u,sep,h1,h2,hcolon,harrow⟩
    refine (returnsAt_bind (expect_yields .string t)).mpr ⟨(name,u),h1,?_⟩
    refine (returnsAt_bind (readWord_yields u)).mpr ⟨(sep,left),h2,?_⟩
    simp only
    cases hs : classLex sep with
    | colon => exact absurd hs hcolon
    | arrow => exact absurd hs harrow
    | _ => exact (returnsAt_throw (by rfl)).mpr rfl

theorem refusedThree_iff (domain family : String) (t : Text) :
    ReturnsAt left (readThree domain family t) ↔ RefusedThree t left := by
  unfold readThree RefusedThree
  constructor
  · intro h
    obtain ⟨⟨member,u⟩,h1,h⟩ := (returnsAt_bind (expect_yields .string t)).mp h
    obtain ⟨⟨sep,u'⟩,h2,h⟩ := (returnsAt_bind (readWord_yields u)).mp h
    refine ⟨member,u,sep,u',h1,h2,?_⟩
    simp only at h
    cases hs : classLex sep with
    | slash =>
      rw [hs] at h
      exact (refusedFour_iff domain family member u').mp h
    | arrow =>
      rw [hs] at h
      refine not_returnsAt_bind (parseProp_yields u') ?_ h
      rintro ⟨p,word,u''⟩
      simp only
      split
      · exact not_returnsAt_pure
      · exact not_returnsAt_pure
    | _ =>
      rw [hs] at h
      exact (returnsAt_throw (by rfl)).mp h
  · rintro ⟨member,u,sep,u',h1,h2,h⟩
    refine (returnsAt_bind (expect_yields .string t)).mpr ⟨(member,u),h1,?_⟩
    refine (returnsAt_bind (readWord_yields u)).mpr ⟨(sep,u'),h2,?_⟩
    simp only
    cases hs : classLex sep with
    | slash =>
      rw [hs] at h
      exact (refusedFour_iff domain family member u').mpr h
    | arrow =>
      rw [hs] at h
      exact h.elim
    | _ =>
      rw [hs] at h
      exact (returnsAt_throw (by rfl)).mpr h

theorem refusedTwo_iff (domain family : String) (t : Text) :
    ReturnsAt left (readTwo domain family t) ↔ RefusedTwo domain t left := by
  unfold readTwo RefusedTwo
  constructor
  · intro h
    obtain ⟨⟨member,u⟩,h1,h⟩ := (returnsAt_bind (expect_yields .string t)).mp h
    obtain ⟨⟨sep,u'⟩,h2,h⟩ := (returnsAt_bind (readWord_yields u)).mp h
    obtain ⟨⟨values,word,u''⟩,h3,h⟩ := (returnsAt_bind (parseResourceValue_yields sep u')).mp h
    refine ⟨member,u,sep,u',values,word,h1,h2,?_⟩
    simp only at h
    split at h
    · exact absurd h not_returnsAt_pure
    · rename_i hclass
      split at h
      · exact absurd h not_returnsAt_pure
      · rename_i hfree
        rw [(returnsAt_throw (by rfl)).mp h]
        exact ⟨h3,by simpa using hclass,by simpa using hfree⟩
  · rintro ⟨member,u,sep,u',values,word,h1,h2,h3,hclass,hfree⟩
    refine (returnsAt_bind (expect_yields .string t)).mpr ⟨(member,u),h1,?_⟩
    refine (returnsAt_bind (readWord_yields u)).mpr ⟨(sep,u'),h2,?_⟩
    refine (returnsAt_bind (parseResourceValue_yields sep u')).mpr ⟨(values,word,left),h3,?_⟩
    simp only
    rw [if_neg (by simp [hclass]),if_neg (by simp [hfree])]
    exact (returnsAt_throw (by rfl)).mpr rfl

theorem refused_iff (word : String) (t : Text) : ReturnsAt left (readStatement word t) ↔ Refused word t left := by
  unfold readStatement Refused
  cases hw : classLex word with
  | string =>
    simp only
    rw [if_pos trivial]
    constructor
    · intro h
      obtain ⟨⟨slash,u⟩,h1,h⟩ := (returnsAt_bind (expect_yields .slash t)).mp h
      obtain ⟨⟨family,u'⟩,h2,h⟩ := (returnsAt_bind (expect_yields .string u)).mp h
      obtain ⟨⟨sep,u''⟩,h3,h⟩ := (returnsAt_bind (readWord_yields u')).mp h
      refine ⟨slash,u,family,u',sep,u'',h1,h2,h3,?_⟩
      simp only at h
      cases hs : classLex sep with
      | slash =>
        rw [hs] at h
        exact (refusedThree_iff word family u'').mp h
      | arrow =>
        rw [hs] at h
        exact (refusedTwo_iff word family u'').mp h
      | _ =>
        rw [hs] at h
        exact (returnsAt_throw (by rfl)).mp h
    · rintro ⟨slash,u,family,u',sep,u'',h1,h2,h3,h⟩
      refine (returnsAt_bind (expect_yields .slash t)).mpr ⟨(slash,u),h1,?_⟩
      refine (returnsAt_bind (expect_yields .string u)).mpr ⟨(family,u'),h2,?_⟩
      refine (returnsAt_bind (readWord_yields u')).mpr ⟨(sep,u''),h3,?_⟩
      simp only
      cases hs : classLex sep with
      | slash =>
        rw [hs] at h
        exact (refusedThree_iff word family u'').mpr h
      | arrow =>
        rw [hs] at h
        exact (refusedTwo_iff word family u'').mpr h
      | _ =>
        rw [hs] at h
        exact (returnsAt_throw (by rfl)).mpr h
  | _ =>
    rw [if_neg (by decide)]
    exact returnsAt_throw (by rfl)

end Refused

section Gap
variable {s : TServer} {names : List String} {word : String} {t left : Text}

/-- More is left than the last character of the file, which comes twice. -/
def Unread (t : Text) : Prop := 2 ≤ t.length

/-- A place where the rest of a file is left out: a statement that is refused, or one that is followed
by the word `NULL`, with something behind it. -/
inductive GapFrom : List String → String → Text → Prop
  | refused {names : List String} {word : String} {t left : Text} (h : Refused word t left) (hu : Unread left) :
      GapFrom names word t
  | null {names : List String} {word : String} {t left : Text} {st : FileStatement}
      (h : readStatement word t = .ok (st,lexicalWordNull,left)) (hf : st.Fits names) (hu : Unread left) :
      GapFrom names word t
  | later {names : List String} {word word' : String} {t t' : Text} {st : FileStatement}
      (h : readStatement word t = .ok (st,word',t')) (hf : st.Fits names) (hn : word' ≠ lexicalWordNull)
      (hg : GapFrom (names ++ st.declares) word' t') : GapFrom names word t

/-- A file with such a place, or one whose first word is empty. -/
def Gap (file : Text) : Prop :=
  ∃ word t, readWord (streamOf file) = .ok (word,t) ∧
    ((word = "" ∧ Unread t) ∨ (word ≠ "" ∧ GapFrom [] word t))

theorem gapFrom_iff : GapFrom names word t ↔ (∃ left, Refused word t left ∧ Unread left) ∨
    ∃ st word' t', readStatement word t = .ok (st,word',t') ∧ st.Fits names ∧
      if word' = lexicalWordNull then Unread t' else GapFrom (names ++ st.declares) word' t' := by
  constructor
  · intro h
    cases h with
    | refused h hu => exact .inl ⟨_,h,hu⟩
    | null h hf hu => exact .inr ⟨_,_,_,h,hf,by rw [if_pos rfl]; exact hu⟩
    | later h hf hn hg => exact .inr ⟨_,_,_,h,hf,by rw [if_neg hn]; exact hg⟩
  · rintro (⟨left,h,hu⟩ | ⟨st,word',t',h,hf,hrest⟩)
    · exact .refused h hu
    · split at hrest
      · rename_i hn
        subst hn
        exact .null h hf hrest
      · rename_i hn
        exact .later h hf hn hrest

/-- A constructor that returns with something unread. -/
def LeavesOut (x : Except ParseError (TServer × Text)) : Prop := ∃ s left, x = .ok (s,left) ∧ Unread left

theorem leavesOut_ok {s : TServer} : LeavesOut (.ok (s,left)) ↔ Unread left := by
  constructor
  · rintro ⟨_,_,h,hu⟩
    cases h
    exact hu
  · intro h
    exact ⟨s,left,rfl,h⟩

theorem not_leavesOut_error {e : ParseError} : ¬ LeavesOut (.error e) := by
  rintro ⟨_,_,h,-⟩
  cases h

theorem openLoop_leavesOut (n : Nat) (hn : t.length < 2 * n) :
    LeavesOut (openLoop n s word t) ↔ GapFrom (namesOfDevices s) word t := by
  induction n generalizing s word t with
  | zero => exact absurd hn (Nat.not_lt_zero _)
  | succ n ih =>
    have hspec := readStatement_yields word t
    rw [openLoop,gapFrom_iff]
    cases hr : readStatement word t with
    | error x =>
      obtain ⟨e,left⟩ := x
      have hback : ∀ u, Refused word t u ↔ left = u ∧ e.returned = true := by
        intro u
        rw [← refused_iff,hr]
        constructor
        · rintro ⟨e',he,h⟩
          cases he
          exact ⟨rfl,h⟩
        · rintro ⟨rfl,h⟩
          exact ⟨e,rfl,h⟩
      simp only [hback,reduceCtorEq,false_and,exists_false,or_false]
      split
      · rename_i hret
        rw [leavesOut_ok]
        simp [hret]
      · rename_i hret
        refine iff_of_false not_leavesOut_error ?_
        rintro ⟨u,⟨-,h⟩,-⟩
        exact hret h
    | ok x =>
      obtain ⟨st,word',t'⟩ := x
      have hlen := hspec.of_ok hr
      have happly := apply_yields s st
      have hno : ∀ u, ¬ Refused word t u := by
        intro u hu
        obtain ⟨e,he,-⟩ := (refused_iff word t).mpr hu
        rw [hr] at he
        cases he
      simp only at hlen ⊢
      simp only [hno,false_and,exists_false,false_or,Except.ok.injEq,Prod.mk.injEq]
      cases hs : st.apply s with
      | error e =>
        have hnot := (happly.of_error hs).2
        refine iff_of_false not_leavesOut_error ?_
        rintro ⟨_,_,_,⟨rfl,-,-⟩,hf,-⟩
        exact hnot hf
      | ok s' =>
        obtain ⟨hnames,hfits⟩ := happly.of_ok hs
        simp only [bind,Except.bind]
        have hstep : (∃ st' word'' t'', (st = st' ∧ word' = word'' ∧ t' = t'') ∧ st'.Fits (namesOfDevices s) ∧
            if word'' = lexicalWordNull then Unread t''
            else GapFrom (namesOfDevices s ++ st'.declares) word'' t'') ↔
            if word' = lexicalWordNull then Unread t' else GapFrom (namesOfDevices s ++ st.declares) word' t' := by
          constructor
          · rintro ⟨_,_,_,⟨rfl,rfl,rfl⟩,-,h⟩
            exact h
          · intro h
            exact ⟨_,_,_,⟨rfl,rfl,rfl⟩,hfits,h⟩
        rw [hstep]
        split
        · exact leavesOut_ok
        · rw [ih (by omega),hnames]

/-- When the constructor returns, the whole file was read. -/
def ReadsAll (file : Text) : Prop :=
  ∀ s left, fileDatabase file = .ok (s,left) → ¬ Unread left

/-- The constructor returns only after the end of the file exactly when no statement of the file is
refused and none is followed by the word `NULL` with something left behind it. -/
theorem constructor_reads_all_iff (file : Text) : ReadsAll file ↔ ¬ Gap file := by
  have hout : ReadsAll file ↔ ¬ LeavesOut (fileDatabase file) := by
    constructor
    · rintro h ⟨s,left,he,hu⟩
      exact h s left he hu
    · intro h s left he hu
      exact h ⟨s,left,he,hu⟩
  rw [hout,not_iff_not]
  unfold fileDatabase Gap
  cases hr : readWord (streamOf file) with
  | error e =>
    refine iff_of_false not_leavesOut_error ?_
    rintro ⟨_,_,h,-⟩
    cases h
  | ok x =>
    obtain ⟨word,t⟩ := x
    have hlen := length_first hr
    have hfirst : (∃ word' t', Except.ok (word,t) = (Except.ok (word',t') : Except ParseError (String × Text)) ∧
        ((word' = "" ∧ Unread t') ∨ (word' ≠ "" ∧ GapFrom [] word' t'))) ↔
        ((word = "" ∧ Unread t) ∨ (word ≠ "" ∧ GapFrom [] word t)) := by
      constructor
      · rintro ⟨_,_,h,hg⟩
        cases h
        exact hg
      · intro h
        exact ⟨word,t,rfl,h⟩
    rw [hfirst]
    simp only [bind,Except.bind]
    split
    · rename_i hw
      rw [leavesOut_ok]
      simp [hw]
    · rename_i hw
      rw [openLoop_leavesOut _ (by omega)]
      simp [hw,namesOfDevices,newServer]

/-- A statement of three names and a colon: the property behind it is not loaded. -/
theorem property_left_out : ∃ s left,
    fileDatabase "Srv/1/DEVICE/Motor: a/b/c\na/b/c: 5\na/b/c->Port: 7\n".toList = .ok (s,left) ∧
      Unread left ∧ s.devices = [⟨"a/b/c",[],[]⟩] := by
  have hopen : (fileDatabase "Srv/1/DEVICE/Motor: a/b/c\na/b/c: 5\na/b/c->Port: 7\n".toList).map
      (fun x => (x.1.devices,decide (2 ≤ x.2.length))) = .ok ([⟨"a/b/c",[],[]⟩],true) := by decide +kernel
  cases hf : fileDatabase "Srv/1/DEVICE/Motor: a/b/c\na/b/c: 5\na/b/c->Port: 7\n".toList with
  | error e =>
    rw [hf] at hopen
    cases hopen
  | ok x =>
    rw [hf] at hopen
    simp only [Except.map,Except.ok.injEq,Prod.mk.injEq,decide_eq_true_eq] at hopen
    exact ⟨x.1,x.2,rfl,hopen.2,hopen.1⟩

end Gap

section Constructor

/-- The constructor keeps what `parse_res_file` has loaded, and throws what it throws. -/
theorem openLoop_parse (n : Nat) (s : TServer) (word : String) (t : Text) :
    match parseLoop n s word t with
    | .ok s' => ∃ left, openLoop n s word t = .ok (s',left)
    | .error e => if e.returned then ∃ s' left, openLoop n s word t = .ok (s',left)
      else openLoop n s word t = .error e := by
  induction n generalizing s word t with
  | zero => rfl
  | succ n ih =>
    rw [parseLoop,parseStatement_eq,openLoop]
    cases hr : readStatement word t with
    | error x =>
      obtain ⟨e,left⟩ := x
      simp only [applied,bind,Except.bind]
      split
      · exact ⟨s,left,rfl⟩
      · rfl
    | ok x =>
      obtain ⟨st,word',t'⟩ := x
      simp only [applied]
      cases hs : st.apply s with
      | error e =>
        have happly := (apply_yields s st).of_error hs
        rw [happly.1]
        rfl
      | ok s' =>
        simp only [Except.map,bind,Except.bind]
        by_cases hw : word' = lexicalWordNull
        · rw [if_pos hw,if_pos hw]
          exact ⟨t',rfl⟩
        · rw [if_neg hw,if_neg hw]
          exact ih s' word' t'

theorem fileDatabase_parse {file : Text} {s : TServer} (h : parseResFile file = .ok s) :
    ∃ left, fileDatabase file = .ok (s,left) := by
  unfold parseResFile at h
  unfold fileDatabase
  cases hr : readWord (streamOf file) with
  | error e =>
    rw [hr] at h
    cases h
  | ok x =>
    obtain ⟨word,t⟩ := x
    rw [hr] at h
    simp only [bind,Except.bind] at h ⊢
    split at h
    · cases h
    · rename_i hw
      have hloop := openLoop_parse (file.length + 1) { newServer with name := word } word t
      rw [h] at hloop
      rw [if_neg hw]
      exact hloop

end Constructor

end CppTango.Db
