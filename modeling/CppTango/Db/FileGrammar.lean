import CppTango.Db.FileText
import CppTango.Lib.Outcome

namespace CppTango.Db

open CppTango.Lib CppTango.Device

section Statements

/-- What one statement of the file says. -/
inductive FileStatement where
  | define (instanceName className : String) (devices : List String)
  | devAttProp (device att : String) (p : TProperty)
  | devProp (device : String) (p : TProperty)
  | classAttProp (className att : String) (p : TProperty)
  | classProp (className : String) (p : TProperty)
  | freeProp (object : String) (p : TProperty)
deriving DecidableEq

/-- What a statement does to the server. -/
def FileStatement.apply (s : TServer) : FileStatement → Except ParseError TServer
  | .define instanceName className devices => .ok (defineClass s instanceName className devices)
  | .devAttProp device att p => addDevAttProp s device att p
  | .devProp device p => .ok (addDevProp s device p)
  | .classAttProp className att p => .ok (addClassAttProp s className att p)
  | .classProp className p => .ok (addClassProp s className p)
  | .freeProp object p => .ok (addFreeProp s object p)

/-- An error, and what is left to read where it occurs. -/
abbrev Reading := Except (ParseError × Text)

def atText {α : Type} (t : Text) (x : Except ParseError α) : Reading α := x.mapError (fun e => (e,t))

/-- A statement, the word behind it and the text behind that. -/
abbrev ReadStatement := FileStatement × String × Text

def readFour (domain family member : String) (t : Text) : Reading ReadStatement := do
  let (name,t) ← atText t (expect .string t)
  let (word,t) ← atText t (readWord t)
  match classLex word with
  | .colon =>
    let (values,word,t) ← atText t (parseResourceValue word t)
    pure (.define family name (if equalsIgnoreCase member "device" then values else []),word,t)
  | .arrow =>
    let (p,word,t) ← atText t (parseProp t)
    pure (.devAttProp (domain ++ "/" ++ family ++ "/" ++ member) name p,word,t)
  | _ => throw (.colonOrArrowExpected,t)

def readThree (domain family : String) (t : Text) : Reading ReadStatement := do
  let (member,t) ← atText t (expect .string t)
  let (word,t) ← atText t (readWord t)
  match classLex word with
  | .slash => readFour domain family member t
  | .arrow =>
    let (p,word,t) ← atText t (parseProp t)
    if equalsIgnoreCase domain "class" then pure (.classAttProp family member p,word,t)
    else pure (.devProp (domain ++ "/" ++ family ++ "/" ++ member) p,word,t)
  | _ => throw (.slashOrArrowExpected,t)

def readTwo (domain family : String) (t : Text) : Reading ReadStatement := do
  let (member,t) ← atText t (expect .string t)
  let (word,t) ← atText t (readWord t)
  let (values,word,t) ← atText t (parseResourceValue word t)
  if equalsIgnoreCase domain "class" then pure (.classProp family ⟨member,values⟩,word,t)
  else if equalsIgnoreCase domain "free" then pure (.freeProp family ⟨member,values⟩,word,t)
  else throw (.invalidClassProperty domain family member,t)

/-- One statement, read without a look at the server. -/
def readStatement (word : String) (t : Text) : Reading ReadStatement :=
  match classLex word with
  | .string => do
    let domain := word
    let (_,t) ← atText t (expect .slash t)
    let (family,t) ← atText t (expect .string t)
    let (word,t) ← atText t (readWord t)
    match classLex word with
    | .slash => readThree domain family t
    | .arrow => readTwo domain family t
    | _ => throw (.slashOrArrowExpected,t)
  | _ => throw (.invalidResourceName,t)

end Statements

section Parse

/-- A statement that was read, applied to a server. -/
def applied (s : TServer) (x : Reading ReadStatement) : Except ParseError Parsed :=
  match x with
  | .error e => .error e.1
  | .ok (st,word,t) => (st.apply s).map (fun s => (s,word,t))

theorem applied_bind {α : Type} (s : TServer) (t : Text) (x : Except ParseError α) (f : α → Reading ReadStatement) :
    applied s (atText t x >>= f) = x >>= (fun a => applied s (f a)) := by
  cases x with
  | error e => rfl
  | ok a => rfl

variable (s : TServer)

theorem parseFour_eq (domain family member : String) (t : Text) :
    parseFour s domain family member t = applied s (readFour domain family member t) := by
  unfold parseFour readFour
  rw [applied_bind]
  congr 1
  funext ⟨name,t⟩
  simp only
  rw [applied_bind]
  congr 1
  funext r
  obtain ⟨word,t⟩ := r
  simp only
  cases classLex word with
  | colon =>
    simp only
    rw [applied_bind]
    rfl
  | arrow =>
    simp only
    rw [applied_bind]
    rfl
  | _ => rfl

theorem parseThree_eq (domain family : String) (t : Text) :
    parseThree s domain family t = applied s (readThree domain family t) := by
  unfold parseThree readThree
  rw [applied_bind]
  congr 1
  funext r
  obtain ⟨member,t⟩ := r
  simp only
  rw [applied_bind]
  congr 1
  funext r
  obtain ⟨word,t⟩ := r
  simp only
  cases classLex word with
  | slash => exact parseFour_eq s domain family member t
  | arrow =>
    simp only
    rw [applied_bind]
    congr 1
    funext r
    obtain ⟨p,word,t⟩ := r
    simp only
    split
    · rfl
    · rfl
  | _ => rfl

theorem parseTwo_eq (domain family : String) (t : Text) :
    parseTwo s domain family t = applied s (readTwo domain family t) := by
  unfold parseTwo readTwo
  rw [applied_bind]
  congr 1
  funext r
  obtain ⟨member,t⟩ := r
  simp only
  rw [applied_bind]
  congr 1
  funext r
  obtain ⟨word,t⟩ := r
  simp only
  rw [applied_bind]
  congr 1
  funext ⟨values,word,t⟩
  simp only
  split
  · rfl
  · split
    · rfl
    · rfl

/-- A statement is read first and does its work on the server afterwards. -/
theorem parseStatement_eq (word : String) (t : Text) :
    parseStatement s word t = applied s (readStatement word t) := by
  unfold parseStatement readStatement
  cases classLex word with
  | string =>
    simp only
    rw [applied_bind]
    congr 1
    funext r
    obtain ⟨_,t⟩ := r
    simp only
    rw [applied_bind]
    congr 1
    funext r
    obtain ⟨family,t⟩ := r
    simp only
    rw [applied_bind]
    congr 1
    funext r
    obtain ⟨sep,t⟩ := r
    simp only
    cases classLex sep with
    | slash => exact parseThree_eq s word family t
    | arrow => exact parseTwo_eq s word family t
    | _ => rfl
  | _ => rfl

end Parse

section Words

/-- The errors that are thrown as `API_DatabaseFileError`. -/
def ParseError.thrown : ParseError → Bool
  | .badLex => true
  | .stringTooLong => true
  | _ => false

/-- The errors that `parse_res_file` returns as a text. -/
def ParseError.returned : ParseError → Bool
  | .emptyFile => true
  | .colonOrArrowExpected => true
  | .slashOrArrowExpected => true
  | .invalidResourceName => true
  | .invalidClassProperty _ _ _ => true
  | _ => false

/-- A word is taken from the front of a text; only `NULL` may leave the text as it is. -/
structure Progress (t : Text) (word : String) (t' : Text) : Prop where
  le : t'.length ≤ t.length
  lt : word ≠ lexicalWordNull → t'.length < t.length

theorem Progress.mono {t u t' : Text} {word : String} (h : Progress u word t') (hu : u.length ≤ t.length) :
    Progress t word t' :=
  ⟨h.le.trans hu,fun hw => (h.lt hw).trans_le hu⟩

theorem Progress.of_lt {t t' : Text} {word : String} (h : t'.length < t.length) : Progress t word t' :=
  ⟨h.le,fun _ => h⟩

theorem Progress.lex {t t' : Text} {word : String} (h : Progress t word t') (hl : classLex word ≠ .string) :
    t'.length < t.length := by
  apply h.lt
  rintro rfl
  exact hl rfl

theorem length_dropWhile_le {p : Char → Bool} (t : Text) : (t.dropWhile p).length ≤ t.length :=
  (List.dropWhile_suffix p).length_le

theorem length_jumpLine_le (t : Text) : (jumpLine t).length ≤ t.length := by
  unfold jumpLine
  rw [List.length_tail]
  exact (Nat.sub_le _ _).trans (length_dropWhile_le t)

theorem length_jumpComments_le (n : Nat) (t : Text) : (jumpComments n t).length ≤ t.length := by
  induction n generalizing t with
  | zero => exact le_rfl
  | succ n ih =>
    rw [jumpComments]
    split
    · exact (ih _).trans ((length_dropWhile_le _).trans (length_jumpLine_le t))
    · exact le_rfl

theorem pos_of_currentChar {t : Text} {c : Char} (hc : c ≠ '\x00') (h : currentChar t = c) : 0 < t.length := by
  cases t with
  | nil => exact absurd h.symm hc
  | cons d t => exact Nat.succ_pos _

theorem wordChars_append_eq (t : Text) : (wordChars t).1 ++ (wordChars t).2 = t := by
  induction t with
  | nil => rfl
  | cons c t ih =>
    rw [wordChars]
    split
    · rw [List.cons_append,ih]
    · rfl

theorem readToken_yields (t : Text) :
    Yields (fun x => Progress t x.1 x.2) (fun e => e = .badLex) (readToken t) := by
  unfold readToken
  cases hj : jumpCComment t with
  | none =>
    have hpos : 0 < t.length := by
      unfold jumpCComment at hj
      split at hj
      · rename_i hc
        exact pos_of_currentChar (by decide) hc
      · cases hj
    apply Progress.of_lt
    rw [List.length_tail]
    omega
  | some u =>
    have hle : u.length ≤ t.length := by
      unfold jumpCComment at hj
      split at hj
      · split at hj
        · cases hj
          exact (length_dropWhile_le _).trans (by rw [List.length_drop]; omega)
        · cases hj
      · cases hj
        exact le_rfl
    simp only
    split
    · rename_i hc
      have hpos : 0 < u.length := by
        rcases hc with hc | hc | hc | hc
        all_goals exact pos_of_currentChar (by decide) hc
      apply Progress.of_lt
      rw [List.length_tail]
      omega
    · split
      · rename_i hc
        have hpos : 0 < u.length := pos_of_currentChar (by decide) hc.1
        apply Progress.of_lt
        rw [List.length_drop]
        omega
      · split
        · rename_i hc
          have hpos : 0 < u.length := pos_of_currentChar (by decide) hc
          unfold lineString
          simp only
          split
          · apply Progress.of_lt
            have := length_dropWhile_le (p := fun c => c ≠ '"' && c ≠ '\x00' && c ≠ '\n') u.tail
            rw [List.length_tail] at this ⊢
            omega
          · rfl
        · have happ := congrArg List.length (wordChars_append_eq u)
          rw [List.length_append] at happ
          refine ⟨by simp only; omega,?_⟩
          intro hw
          by_cases hnil : (wordChars u).1 = []
          · exact absurd (by simp [hnil]) hw
          · have := List.length_pos_of_ne_nil hnil
            simp only
            omega

theorem readWord_yields (t : Text) :
    Yields (fun x => Progress t x.1 x.2) (fun e => e.thrown = true) (readWord t) := by
  unfold readWord
  apply (readToken_yields _).imp
  · intro x hx
    exact hx.mono ((length_jumpComments_le _ _).trans (length_dropWhile_le t))
  · rintro e rfl
    rfl

theorem expect_yields (lex : Lex) (t : Text) :
    Yields (fun x => Progress t x.1 x.2 ∧ classLex x.1 = lex) (fun e => e.thrown = true) (expect lex t) := by
  unfold expect
  apply (readWord_yields t).bind
  rintro ⟨word,t'⟩ h
  simp only
  split
  · rename_i hl
    exact ⟨h,hl⟩
  · rfl

theorem length_fullString {t w t' : Text} (h : fullString t = some (w,t')) : t'.length ≤ t.length := by
  induction t using fullString.induct generalizing w with
  | case1 => cases h
  | case2 t =>
    cases h
    exact Nat.le_succ _
  | case3 c t ih =>
    rw [fullString] at h
    obtain ⟨⟨w',u⟩,hu,he⟩ := Option.map_eq_some_iff.mp h
    cases he
    have := ih hu
    simp only [List.length_cons]
    omega
  | case4 t h1 h2 =>
    rw [fullString] at h
    · cases h
    · exact h1
    · exact h2
  | case5 c t h1 h2 hc ih =>
    rw [fullString,if_neg hc] at h
    · obtain ⟨⟨w',u⟩,hu,he⟩ := Option.map_eq_some_iff.mp h
      cases he
      have := ih hu
      simp only [List.length_cons]
      omega
    · exact h1
    · exact h2

theorem readFullWord_yields (t : Text) :
    Yields (fun x => x.2.length ≤ t.length) (fun e => e.thrown = true) (readFullWord t) := by
  have hj : (jumpSpace t).length ≤ t.length := length_dropWhile_le t
  unfold readFullWord
  simp only
  split
  · simp only [Yields,List.length_tail]
    omega
  · split
    · split
      · rfl
      · rename_i word u hu
        have := length_fullString hu
        rw [List.length_tail] at this
        simp only [Yields]
        omega
    · exact (length_dropWhile_le _).trans hj

end Words

section Values

theorem parseOneValue_yields (t : Text) :
    Yields (fun x => Progress t x.2.1 x.2.2) (fun e => e.thrown = true) (parseOneValue t) := by
  have hlast : ∀ {value : String} {u : Text}, u.length ≤ t.length → Yields
      (fun (x : String × String × Text) => Progress t x.2.1 x.2.2) (fun e => e.thrown = true)
      (if classLex value = .string then do
        let (word,t) ← readWord u
        pure (value,word,t) else throw ParseError.badLex) := by
    intro value u hu
    split
    · apply (readWord_yields u).bind
      rintro ⟨word,t'⟩ h
      exact h.mono hu
    · rfl
  unfold parseOneValue
  apply (readFullWord_yields t).bind
  rintro ⟨value,u⟩ hu
  simp only at hu ⊢
  split
  · apply (readFullWord_yields u).bind
    rintro ⟨value',u'⟩ hu'
    exact hlast (hu'.trans hu)
  · exact hlast hu

/-- Each turn takes a separator, so that the bound on their number is never reached. -/
theorem parseValues_yields (n : Nat) {t : Text} (hn : t.length < n) :
    Yields (fun x => x.2.2.length ≤ t.length) (fun e => e.thrown = true) (parseValues n t) := by
  induction n generalizing t with
  | zero => exact absurd hn (Nat.not_lt_zero _)
  | succ n ih =>
    rw [parseValues]
    apply (parseOneValue_yields t).bind
    rintro ⟨value,word,u⟩ hu
    simp only at hu ⊢
    split
    · rename_i hsep
      have hlt : u.length < t.length := by
        apply hu.lex
        rcases hsep with hsep | hsep
        · rw [hsep]
          decide
        · rw [hsep]
          decide
      apply (ih (t := u) (by omega)).bind
      rintro ⟨values,word',u'⟩ hu'
      exact hu'.trans hlt.le
    · exact hu.le

theorem parseResourceValue_yields (word : String) (t : Text) :
    Yields (fun x => x.2.2.length ≤ t.length) (fun e => e.thrown = true) (parseResourceValue word t) := by
  unfold parseResourceValue
  split
  · exact le_rfl
  · exact parseValues_yields _ (Nat.lt_succ_self _)

theorem parseProp_yields (t : Text) :
    Yields (fun x => x.2.2.length ≤ t.length) (fun e => e.thrown = true) (parseProp t) := by
  unfold parseProp
  apply (expect_yields .string t).bind
  rintro ⟨propName,u⟩ ⟨hu,-⟩
  apply (expect_yields .colon u).bind
  rintro ⟨word,u'⟩ ⟨hu',-⟩
  apply (parseResourceValue_yields word u').bind
  rintro ⟨values,word',u''⟩ hu''
  exact hu''.trans (hu'.le.trans hu.le)

end Values

section Lengths
variable {t : Text} {domain family member word : String}

/-- An error of a statement: it is thrown or returned as a text. -/
def Refusal (e : ParseError × Text) : Prop := e.1.thrown = true ∨ e.1.returned = true

/-- A part of the file is read from some place on. -/
def ReadsOn (n : Nat) (x : Reading ReadStatement) : Prop := Yields (fun x => x.2.2.length ≤ n) Refusal x

theorem yields_atText {α : Type} {post : α → Prop} {x : Except ParseError α}
    (h : Yields post (fun e => e.thrown = true) x) : Yields post Refusal (atText t x) :=
  (h.imp (fun _ ha => ha) (fun _ he => Or.inl he)).mapError

theorem readFour_on (domain family member : String) (t : Text) : ReadsOn t.length (readFour domain family member t) := by
  unfold readFour ReadsOn
  apply (yields_atText (expect_yields .string t)).bind
  rintro ⟨name,u⟩ ⟨hu,-⟩
  apply (yields_atText (readWord_yields u)).bind
  rintro ⟨word,u'⟩ hu'
  have hle := hu'.le.trans hu.le
  simp only
  cases classLex word with
  | colon =>
    apply (yields_atText (parseResourceValue_yields word u')).bind
    rintro ⟨values,word',u''⟩ hu''
    exact hu''.trans hle
  | arrow =>
    apply (yields_atText (parseProp_yields u')).bind
    rintro ⟨p,word',u''⟩ hu''
    exact hu''.trans hle
  | _ => exact Or.inr rfl

theorem readThree_on (domain family : String) (t : Text) : ReadsOn t.length (readThree domain family t) := by
  unfold readThree ReadsOn
  apply (yields_atText (expect_yields .string t)).bind
  rintro ⟨member,u⟩ ⟨hu,-⟩
  apply (yields_atText (readWord_yields u)).bind
  rintro ⟨word,u'⟩ hu'
  have hle := hu'.le.trans hu.le
  simp only
  cases classLex word with
  | slash => exact (readFour_on domain family member u').imp (fun _ h => h.trans hle) (fun _ h => h)
  | arrow =>
    apply (yields_atText (parseProp_yields u')).bind
    rintro ⟨p,word',u''⟩ hu''
    simp only
    split
    · exact hu''.trans hle
    · exact hu''.trans hle
  | _ => exact Or.inr rfl

theorem readTwo_on (domain family : String) (t : Text) : ReadsOn t.length (readTwo domain family t) := by
  unfold readTwo ReadsOn
  apply (yields_atText (expect_yields .string t)).bind
  rintro ⟨member,u⟩ ⟨hu,-⟩
  apply (yields_atText (readWord_yields u)).bind
  rintro ⟨word,u'⟩ hu'
  apply (yields_atText (parseResourceValue_yields word u')).bind
  rintro ⟨values,word',u''⟩ hu''
  have hle := hu''.trans (hu'.le.trans hu.le)
  simp only
  split
  · exact hle
  · split
    · exact hle
    · exact Or.inr rfl

/-- A statement takes at least its two separators from the text. -/
theorem readStatement_yields (word : String) (t : Text) :
    Yields (fun x => x.2.2.length + 2 ≤ t.length) Refusal (readStatement word t) := by
  unfold readStatement
  cases classLex word with
  | string =>
    simp only
    apply (yields_atText (expect_yields .slash t)).bind
    rintro ⟨slash,u⟩ ⟨hu,hslash⟩
    apply (yields_atText (expect_yields .string u)).bind
    rintro ⟨family,u'⟩ ⟨hu',-⟩
    apply (yields_atText (readWord_yields u')).bind
    rintro ⟨sep,u''⟩ hu''
    have hlt : u.length < t.length := hu.lex (by rw [hslash]; decide)
    have hle := hu'.le
    simp only at hlt hle hu'' ⊢
    cases hs : classLex sep with
    | slash =>
      have hlt' := hu''.lex (by rw [hs]; decide)
      exact (readThree_on word family u'').imp (fun _ h => by omega) (fun _ h => h)
    | arrow =>
      have hlt' := hu''.lex (by rw [hs]; decide)
      exact (readTwo_on word family u'').imp (fun _ h => by omega) (fun _ h => h)
    | _ => exact Or.inr rfl
  | _ => exact Or.inr rfl

end Lengths

end CppTango.Db
