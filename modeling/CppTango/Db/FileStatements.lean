import CppTango.Db.FileLex

namespace CppTango.Db

open CppTango.Lib CppTango.Device

section Values
variable {t t' : Text} {w word : String}

theorem expect_ok {lex : Lex} (hr : readWord t = .ok (w,t')) (hl : classLex w = lex) :
    expect lex t = .ok (w,t') := by
  unfold expect
  rw [hr]
  simp only [bind,Except.bind]
  rw [if_pos hl]
  rfl

theorem expect_name (h : NameOk w) (ht : Stops t) : expect .string (w.toList ++ t) = .ok (w,t) :=
  expect_ok (readWord_name h ht) (classLex_name h)

/-- What may stand in front of a value: spaces, or the end of the line before. -/
inductive Lead : Text → Prop
  | blanks {b : Text} (hb : ∀ c ∈ b, isBlank c = true) : Lead b
  | line {b : Text} (hb : ∀ c ∈ b, isBlank c = true) : Lead ('\\' :: b)

theorem parseOneValue_written {x : Text} {v : String} (h : Written x v) {b : Text} (hb : Lead b) {c : Char}
    (hc : c = ',' ∨ c = '\n') (hw : readWord (c :: t) = .ok (word,t')) :
    parseOneValue (b ++ (x ++ c :: t)) = .ok (v,word,t') := by
  obtain ⟨hlex,hread⟩ := h
  unfold parseOneValue
  cases hb with
  | blanks hb =>
    rw [hread b c t hb hc]
    simp only [bind,Except.bind]
    rw [if_neg (by rw [hlex]; decide)]
    simp only [pure,Except.pure]
    rw [if_pos hlex,hw]
  | @line b hb =>
    have hback : readFullWord ('\\' :: b ++ (x ++ c :: t)) = .ok ("\\",b ++ (x ++ c :: t)) := rfl
    rw [hback]
    simp only [bind,Except.bind]
    rw [if_pos (by decide),hread b c t hb hc]
    simp only
    rw [if_pos hlex,hw]
    rfl

/-- The end of a line, and the margin of the next one. -/
theorem lead_margin (margin : Nat) : Lead ('\\' :: '\n' :: List.replicate margin ' ') := by
  apply Lead.line
  intro c hc
  rcases List.mem_cons.mp hc with rfl | hc
  · rfl
  · rw [List.eq_of_mem_replicate hc]
    rfl

theorem nextLine_append {α : Type} (g : α → Text) (margin : Nat) (y : α) (ys : List α) (t : Text) :
    (y :: ys).flatMap (fun y => nextLine margin (g y)) ++ t =
      ',' :: ('\\' :: '\n' :: List.replicate margin ' ' ++
        (g y ++ (ys.flatMap (fun y => nextLine margin (g y)) ++ t))) := by
  rw [List.flatMap_cons,nextLine,show ",\\\n".toList = [',','\\','\n'] from rfl]
  simp only [List.cons_append,List.nil_append,List.append_assoc]

/-- The word that follows the values of a statement. -/
structure NextWord (t : Text) (word : String) (t' : Text) : Prop where
  read : readWord ('\n' :: t) = .ok (word,t')
  noComma : classLex word ≠ .coma
  noAslash : classLex word ≠ .aslash

theorem parseValues_written {xs : List (Text × String)} {margin : Nat} (hn : NextWord t word t')
    {x : Text} {v : String} (h : Written x v) (hxs : ∀ y ∈ xs, Written y.1 y.2) {b : Text} (hb : Lead b)
    {n : Nat} (hlen : xs.length < n) :
    parseValues n (b ++ (x ++ (xs.flatMap (fun y => nextLine margin y.1) ++ '\n' :: t))) =
      .ok (v :: xs.map Prod.snd,word,t') := by
  induction xs generalizing x v b n with
  | nil =>
    cases n with
    | zero => exact absurd hlen (Nat.not_lt_zero _)
    | succ n =>
      rw [List.flatMap_nil,List.nil_append,parseValues,parseOneValue_written h hb (Or.inr rfl) hn.read]
      simp only [bind,Except.bind]
      rw [if_neg (by simp [hn.noComma,hn.noAslash])]
      rfl
  | cons y xs ih =>
    cases n with
    | zero => exact absurd hlen (Nat.not_lt_zero _)
    | succ n =>
      obtain ⟨y,u⟩ := y
      have htail := ih (hxs (y,u) List.mem_cons_self) (fun z hz => hxs z (List.mem_cons_of_mem _ hz))
        (lead_margin margin) (n := n) (Nat.lt_of_succ_lt_succ hlen)
      rw [nextLine_append Prod.fst,parseValues,parseOneValue_written h hb (Or.inl rfl) (readWord_comma _)]
      simp only [bind,Except.bind]
      rw [if_pos (Or.inl (by decide)),htail]
      rfl

/-- Values as they are written behind a colon. -/
theorem parseResourceValue_written {xs : List (Text × String)} {margin : Nat} (hn : NextWord t word t')
    {x : Text} {v : String} (h : Written x v) (hxs : ∀ y ∈ xs, Written y.1 y.2) :
    parseResourceValue ":" (' ' :: (x ++ (xs.flatMap (fun y => nextLine margin y.1) ++ '\n' :: t))) =
      .ok (v :: xs.map Prod.snd,word,t') := by
  have hlead : Lead [' '] := Lead.blanks (fun c hc => by rw [List.mem_singleton.mp hc]; rfl)
  have hcount : xs.length ≤ (xs.flatMap (fun y => nextLine margin y.1)).length := by
    clear hxs
    induction xs with
    | nil => exact Nat.zero_le _
    | cons y xs ih =>
      rw [List.flatMap_cons,List.length_append,List.length_cons,nextLine,List.length_append,
        List.length_append,show ",\\\n".toList.length = 3 from rfl]
      omega
  unfold parseResourceValue
  rw [if_neg (by decide)]
  apply parseValues_written hn h hxs hlead
  simp only [List.length_cons,List.length_append]
  omega

/-- Values in the file that are read back. -/
def ValuesText (y : Text) (values : List String) : Prop :=
  ∀ t word t', NextWord t word t' →
    parseResourceValue ":" (' ' :: (y ++ '\n' :: t)) = .ok (values,word,t')

/-- Values that are read back one by one are read back together, whatever writes them. -/
theorem valuesText_written {write : String → Text} {v : String} {vs : List String}
    (hw : ∀ u ∈ v :: vs, Written (write u) u) (margin : Nat) :
    ValuesText (write v ++ vs.flatMap (fun u => nextLine margin (write u))) (v :: vs) := by
  intro t word t' hn
  have hmap : ∀ y ∈ vs.map (fun u => (write u,u)), Written y.1 y.2 := by
    intro y hy
    obtain ⟨u,hu,rfl⟩ := List.mem_map.mp hy
    exact hw u (List.mem_cons_of_mem _ hu)
  have hparse : parseResourceValue ":" (' ' :: (write v ++
      ((vs.map (fun u => (write u,u))).flatMap (fun y => nextLine margin y.1) ++ '\n' :: t))) =
      .ok (v :: (vs.map (fun u => (write u,u))).map Prod.snd,word,t') :=
    parseResourceValue_written hn (hw v List.mem_cons_self) hmap
  rw [List.flatMap_map,List.map_map] at hparse
  have hid : vs.map (Prod.snd ∘ fun u => (write u,u)) = vs := List.map_id _
  rw [hid] at hparse
  rw [List.append_assoc]
  exact hparse

theorem valuesText_write {v : String} {vs : List String} (h : ∀ u ∈ v :: vs, ValueOk u ∧ Speechless u)
    (margin : Nat) : ValuesText (writeValues margin (v :: vs)) (v :: vs) :=
  valuesText_written (fun u hu => written_value (h u hu).1 (h u hu).2) margin

theorem valuesText_class {v : String} {vs : List String} (h : ∀ u ∈ v :: vs, ValueOk u ∧ Speechless u)
    (margin : Nat) : ValuesText (writeClassValues margin (v :: vs)) (v :: vs) := by
  have hne : v ≠ "" := by
    rintro rfl
    exact (h "" List.mem_cons_self).1.nonempty rfl
  have hsame : writeClassValues margin (v :: vs) = writeValues margin (v :: vs) := by
    rw [writeClassValues,writeValues,if_neg hne]
  rw [hsame]
  exact valuesText_write h margin

end Values

section Statements
variable {s : TServer} {t t' : Text} {w word f m p : String} {y : Text} {vals : List String}

/-- A name that no comment starts with when it stands behind a slash. -/
def NoStar (w : String) : Prop := w.toList.head? ≠ some '*'

instance (w : String) : Decidable (NoStar w) := inferInstanceAs (Decidable (w.toList.head? ≠ some '*'))

theorem currentChar_name (h : NameOk w) (hs : NoStar w) (t : Text) : currentChar (w.toList ++ t) ≠ '*' := by
  obtain ⟨c,l,hl⟩ := List.exists_cons_of_ne_nil h.nonempty
  unfold NoStar at hs
  rw [hl] at hs ⊢
  intro he
  exact hs (congrArg some he)

theorem parseProp_written (hp : NameOk p) (hy : ValuesText y vals) (hn : NextWord t word t') :
    parseProp (p.toList ++ ':' :: ' ' :: (y ++ '\n' :: t)) = .ok (⟨p,vals⟩,word,t') := by
  unfold parseProp
  rw [expect_name hp (stops_colon _)]
  simp only [bind,Except.bind]
  rw [expect_ok (readWord_colon _) (by decide)]
  simp only
  rw [hy t word t' hn]
  rfl

theorem parseStatement_two (hw : classLex w = .string) (hf : NameOk f) (hs : NoStar f) :
    parseStatement s w ('/' :: (f.toList ++ '-' :: '>' :: t)) = parseTwo s w f t := by
  unfold parseStatement
  rw [hw]
  simp only [bind,Except.bind]
  rw [expect_ok (readWord_slash (currentChar_name hf hs _)) (by decide)]
  simp only
  rw [expect_name hf (stops_arrow _)]
  simp only
  rw [readWord_arrow]
  rfl

theorem parseStatement_three (hw : classLex w = .string) (hf : NameOk f) (hs : NoStar f)
    (ht : currentChar t ≠ '*') :
    parseStatement s w ('/' :: (f.toList ++ '/' :: t)) = parseThree s w f t := by
  unfold parseStatement
  rw [hw]
  simp only [bind,Except.bind]
  rw [expect_ok (readWord_slash (currentChar_name hf hs _)) (by decide)]
  simp only
  rw [expect_name hf (stops_slash _)]
  simp only
  rw [readWord_slash ht]
  rfl

theorem parseThree_four (hm : NameOk m) (ht : currentChar t ≠ '*') :
    parseThree s w f (m.toList ++ '/' :: t) = parseFour s w f m t := by
  unfold parseThree
  rw [expect_name hm (stops_slash _)]
  simp only [bind,Except.bind]
  rw [readWord_slash ht]
  rfl

/-- A property of a device, or of an attribute of a class. -/
theorem parseThree_prop (hm : NameOk m) (hp : NameOk p) (hy : ValuesText y vals) (hn : NextWord t word t') :
    parseThree s w f (m.toList ++ '-' :: '>' :: (p.toList ++ ':' :: ' ' :: (y ++ '\n' :: t))) =
      .ok (if equalsIgnoreCase w "class" then addClassAttProp s f m ⟨p,vals⟩
        else addDevProp s (w ++ "/" ++ f ++ "/" ++ m) ⟨p,vals⟩,word,t') := by
  unfold parseThree
  rw [expect_name hm (stops_arrow _)]
  simp only [bind,Except.bind]
  rw [readWord_arrow]
  have harrow : classLex "->" = .arrow := by decide
  simp only [harrow]
  rw [parseProp_written hp hy hn]
  simp only
  split
  · rfl
  · rfl

/-- A property of an attribute of a device. -/
theorem parseFour_prop {a : String} (ha : NameOk a) (hp : NameOk p) (hy : ValuesText y vals)
    (hn : NextWord t word t') :
    parseFour s w f m (a.toList ++ '-' :: '>' :: (p.toList ++ ':' :: ' ' :: (y ++ '\n' :: t))) =
      (addDevAttProp s (w ++ "/" ++ f ++ "/" ++ m) a ⟨p,vals⟩).map (fun s => (s,word,t')) := by
  unfold parseFour
  rw [expect_name ha (stops_arrow _)]
  simp only [bind,Except.bind]
  rw [readWord_arrow]
  have harrow : classLex "->" = .arrow := by decide
  simp only [harrow]
  rw [parseProp_written hp hy hn]
  simp only
  cases addDevAttProp s (w ++ "/" ++ f ++ "/" ++ m) a ⟨p,vals⟩ with
  | error e => rfl
  | ok s => rfl

theorem parseFour_devices {c : String} (hc : NameOk c) (hm : equalsIgnoreCase m "device" = true)
    (hy : ValuesText y vals) (hn : NextWord t word t') :
    parseFour s w f m (c.toList ++ ':' :: ' ' :: (y ++ '\n' :: t)) =
      .ok (defineClass s f c vals,word,t') := by
  unfold parseFour
  rw [expect_name hc (stops_colon _)]
  simp only [bind,Except.bind]
  rw [readWord_colon]
  have hcolon : classLex ":" = .colon := by decide
  simp only [hcolon]
  rw [hy t word t' hn]
  simp only
  rw [if_pos hm]
  rfl

theorem parseTwo_written (hp : NameOk p) (hy : ValuesText y vals) (hn : NextWord t word t') :
    parseTwo s w f (p.toList ++ ':' :: ' ' :: (y ++ '\n' :: t)) =
      if equalsIgnoreCase w "class" then .ok (addClassProp s f ⟨p,vals⟩,word,t')
      else if equalsIgnoreCase w "free" then .ok (addFreeProp s f ⟨p,vals⟩,word,t')
      else .error (.invalidClassProperty w f p) := by
  unfold parseTwo
  rw [expect_name hp (stops_colon _)]
  simp only [bind,Except.bind]
  rw [readWord_colon]
  simp only
  rw [hy t word t' hn]
  rfl

/-- A text that is read as one statement with the word `w` first, whatever follows it on the next
line. -/
structure Statement (x : Text) (w : String) (e : TServer → Except ParseError TServer) : Prop where
  start : ∀ t, Start (x ++ t)
  notNull : w ≠ lexicalWordNull
  lex : classLex w = .string
  parse : ∀ t word t', NextWord t word t' → ∃ rest, readToken (x ++ '\n' :: t) = .ok (w,rest) ∧
    ∀ s, parseStatement s w rest = (e s).map (fun s => (s,word,t'))

/-- A statement whose first word is a name. -/
theorem statement_of {rest : Text} {e : TServer → Except ParseError TServer} (hw : NameOk w)
    (h : ∀ t word t', NextWord t word t' →
      ∀ s, parseStatement s w ('/' :: (rest ++ '\n' :: t)) = (e s).map (fun s => (s,word,t'))) :
    Statement (w.toList ++ '/' :: rest) w e where
  start t := by
    rw [List.append_assoc]
    exact start_name hw
  notNull := hw.null
  lex := classLex_name hw
  parse t word t' hn := by
    refine ⟨'/' :: (rest ++ '\n' :: t),?_,h t word t' hn⟩
    rw [List.append_assoc,List.cons_append]
    exact readToken_name hw (stops_slash _)

theorem nameOk_class : NameOk "CLASS" := by decide

theorem nameOk_free : NameOk "FREE" := by decide

theorem nameOk_device : NameOk "DEVICE" := by decide

theorem noStar_device : NoStar "DEVICE" := by decide

theorem statement_devices {c : String} (hw : NameOk w) (hf : NameOk f) (hfs : NoStar f) (hc : NameOk c)
    (hcs : NoStar c) (hy : ValuesText y vals) :
    Statement (w.toList ++ '/' :: (f.toList ++ '/' :: ("DEVICE".toList ++ '/' :: (c.toList ++ ':' :: ' ' :: y))))
      w (fun s => .ok (defineClass s f c vals)) := by
  apply statement_of hw
  intro t word t' hn s
  simp only [List.append_assoc,List.cons_append]
  rw [parseStatement_three (classLex_name hw) hf hfs (currentChar_name nameOk_device noStar_device _),
    parseThree_four nameOk_device (currentChar_name hc hcs _),parseFour_devices hc (by decide) hy hn]
  rfl

theorem statement_classProp {c : String} (hc : NameOk c) (hcs : NoStar c) (hp : NameOk p)
    (hy : ValuesText y vals) :
    Statement ("CLASS".toList ++ '/' :: (c.toList ++ '-' :: '>' :: (p.toList ++ ':' :: ' ' :: y))) "CLASS"
      (fun s => .ok (addClassProp s c ⟨p,vals⟩)) := by
  apply statement_of nameOk_class
  intro t word t' hn s
  simp only [List.append_assoc,List.cons_append]
  rw [parseStatement_two (classLex_name nameOk_class) hc hcs,parseTwo_written hp hy hn,if_pos (by decide)]
  rfl

theorem statement_freeProp {o : String} (ho : NameOk o) (hos : NoStar o) (hp : NameOk p)
    (hy : ValuesText y vals) :
    Statement ("FREE".toList ++ '/' :: (o.toList ++ '-' :: '>' :: (p.toList ++ ':' :: ' ' :: y))) "FREE"
      (fun s => .ok (addFreeProp s o ⟨p,vals⟩)) := by
  apply statement_of nameOk_free
  intro t word t' hn s
  simp only [List.append_assoc,List.cons_append]
  rw [parseStatement_two (classLex_name nameOk_free) ho hos,parseTwo_written hp hy hn,if_neg (by decide),
    if_pos (by decide)]
  rfl

theorem statement_classAtt {c a : String} (hc : NameOk c) (hcs : NoStar c) (ha : NameOk a) (has : NoStar a)
    (hp : NameOk p) (hy : ValuesText y vals) :
    Statement ("CLASS".toList ++ '/' :: (c.toList ++ '/' :: (a.toList ++ '-' :: '>' ::
        (p.toList ++ ':' :: ' ' :: y)))) "CLASS"
      (fun s => .ok (addClassAttProp s c a ⟨p,vals⟩)) := by
  apply statement_of nameOk_class
  intro t word t' hn s
  simp only [List.append_assoc,List.cons_append]
  rw [parseStatement_three (classLex_name nameOk_class) hc hcs (currentChar_name ha has _),
    parseThree_prop ha hp hy hn,if_pos (by decide)]
  rfl

theorem statement_devProp (hw : NameOk w) (hwc : equalsIgnoreCase w "class" = false) (hf : NameOk f)
    (hfs : NoStar f) (hm : NameOk m) (hms : NoStar m) (hp : NameOk p) (hy : ValuesText y vals) :
    Statement (w.toList ++ '/' :: (f.toList ++ '/' :: (m.toList ++ '-' :: '>' ::
        (p.toList ++ ':' :: ' ' :: y)))) w
      (fun s => .ok (addDevProp s (w ++ "/" ++ f ++ "/" ++ m) ⟨p,vals⟩)) := by
  apply statement_of hw
  intro t word t' hn s
  simp only [List.append_assoc,List.cons_append]
  rw [parseStatement_three (classLex_name hw) hf hfs (currentChar_name hm hms _),
    parseThree_prop hm hp hy hn,if_neg (by rw [hwc]; exact Bool.false_ne_true)]
  rfl

theorem statement_devAtt {a : String} (hw : NameOk w) (hf : NameOk f) (hfs : NoStar f) (hm : NameOk m)
    (hms : NoStar m) (ha : NameOk a) (has : NoStar a) (hp : NameOk p) (hy : ValuesText y vals) :
    Statement (w.toList ++ '/' :: (f.toList ++ '/' :: (m.toList ++ '/' :: (a.toList ++ '-' :: '>' ::
        (p.toList ++ ':' :: ' ' :: y))))) w
      (fun s => addDevAttProp s (w ++ "/" ++ f ++ "/" ++ m) a ⟨p,vals⟩) := by
  apply statement_of hw
  intro t word t' hn s
  simp only [List.append_assoc,List.cons_append]
  rw [parseStatement_three (classLex_name hw) hf hfs (currentChar_name hm hms _),
    parseThree_four hm (currentChar_name ha has _),parseFour_prop ha hp hy hn]

end Statements

section Pieces

/-- A part of the file: spaces and comments, or a statement with what it does. -/
inductive Piece where
  | junk (g : Text)
  | statement (x : Text) (w : String) (e : TServer → Except ParseError TServer)

def Piece.text : Piece → Text
  | .junk g => g
  | .statement x _ _ => x ++ ['\n']

def Piece.Ok : Piece → Prop
  | .junk g => Junk g
  | .statement x w e => Statement x w e

def Piece.effect : Piece → TServer → Except ParseError TServer
  | .junk _,s => .ok s
  | .statement _ _ e,s => e s

/-- The server after a file. -/
def effects (ps : List Piece) (s : TServer) : Except ParseError TServer := ps.foldlM (fun s p => p.effect s) s

/-- The parser behind a statement. -/
def resume (n : Nat) (s : TServer) (word : String) (t : Text) : Except ParseError TServer :=
  if word = lexicalWordNull then .ok s else parseLoop n s word t

theorem effects_junk (g : Text) (ps : List Piece) (s : TServer) :
    effects (.junk g :: ps) s = effects ps s := rfl

theorem effects_statement (x : Text) (w : String) (e : TServer → Except ParseError TServer) (ps : List Piece)
    (s : TServer) : effects (.statement x w e :: ps) s = (e s).bind (effects ps) := rfl

theorem effects_append (ps qs : List Piece) (s : TServer) :
    effects (ps ++ qs) s = (effects ps s).bind (effects qs) := List.foldlM_append

/-- A file is read statement after statement. The induction is over its parts, with the spaces and
comments that are still to be jumped over in front. -/
theorem resume_pieces {ps : List Piece} (h : ∀ p ∈ ps, p.Ok) {g : Text} (hg : Junk g) :
    ∃ word t', readWord (g ++ ps.flatMap Piece.text) = .ok (word,t') ∧ classLex word ≠ .coma ∧
      classLex word ≠ .aslash ∧ (∀ x w e ps', ps = .statement x w e :: ps' → word = w) ∧
      ∀ n s, ps.length ≤ n → resume n s word t' = effects ps s := by
  induction ps generalizing g with
  | nil =>
    refine ⟨lexicalWordNull,[],?_,by decide,by decide,fun _ _ _ _ h => absurd h (by simp),fun n s _ => rfl⟩
    rw [List.flatMap_nil,readWord_junk hg start_nil]
    rfl
  | cons p ps ih =>
    have hps : ∀ q ∈ ps, q.Ok := fun q hq => h q (List.mem_cons_of_mem _ hq)
    have hp := h p List.mem_cons_self
    cases p with
    | junk g' =>
      obtain ⟨word,t',hr,h1,h2,-,hn⟩ := ih hps (hg.append hp)
      refine ⟨word,t',?_,h1,h2,fun _ _ _ _ h => absurd h (by simp),?_⟩
      · rw [List.flatMap_cons,← List.append_assoc]
        exact hr
      · intro n s hlen
        rw [List.length_cons] at hlen
        rw [effects_junk]
        exact hn n s (by omega)
    | statement x w e =>
      obtain ⟨word,t',hr,h1,h2,-,hn⟩ := ih hps junk_newline
      obtain ⟨rest,hrest,hparse⟩ := hp.parse _ word t' ⟨hr,h1,h2⟩
      refine ⟨w,rest,?_,by rw [hp.lex]; decide,by rw [hp.lex]; decide,?_,?_⟩
      · rw [List.flatMap_cons,Piece.text,List.append_assoc,List.singleton_append,
          readWord_junk hg (hp.start _)]
        exact hrest
      · intro x' w' e' ps' he
        cases he
        rfl
      · intro n s hlen
        rw [List.length_cons] at hlen
        cases n with
        | zero => exact absurd hlen (by omega)
        | succ n =>
          unfold resume
          rw [if_neg hp.notNull,parseLoop,hparse s,effects_statement]
          cases e s with
          | error err => rfl
          | ok s' =>
            have hrest := hn n s' (by omega)
            unfold resume at hrest
            exact hrest

end Pieces

end CppTango.Db
