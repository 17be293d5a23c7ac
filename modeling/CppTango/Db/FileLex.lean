import CppTango.Db.FileText
import Mathlib.Data.List.Infix

namespace CppTango.Db

open CppTango.Lib CppTango.Device

section Names

/-- Printable and without a meaning of its own in the file. -/
def plainChar (c : Char) : Bool :=
  32 < c.toNat && c.toNat < 127 && c ≠ ',' && c ≠ ':' && c ≠ '/' && c ≠ '\\' && c ≠ '"'

/-- A word that can be a name. -/
structure NameOk (w : String) : Prop where
  nonempty : w.toList ≠ []
  plain : ∀ c ∈ w.toList, plainChar c = true
  hash : w.toList.head? ≠ some '#'
  arrow : ¬ ['-','>'] <:+: w.toList
  null : w ≠ lexicalWordNull

instance (w : String) : Decidable (NameOk w) :=
  decidable_of_iff (w.toList ≠ [] ∧ w.toList.all plainChar = true ∧ w.toList.head? ≠ some '#' ∧
    ¬ ['-','>'] <:+: w.toList ∧ w ≠ lexicalWordNull)
    ⟨fun ⟨h1,h2,h3,h4,h5⟩ => ⟨h1,List.all_eq_true.mp h2,h3,h4,h5⟩,
      fun h => ⟨h.nonempty,List.all_eq_true.mpr h.plain,h.hash,h.arrow,h.null⟩⟩

/-- Printable, or a newline, and no separator of values. -/
def valueChar (c : Char) : Bool :=
  c = '\n' || (31 < c.toNat && c.toNat < 127 && c ≠ ',' && c ≠ '\\')

structure ValueOk (v : String) : Prop where
  nonempty : v.toList ≠ []
  chars : ∀ c ∈ v.toList, valueChar c = true

instance (v : String) : Decidable (ValueOk v) :=
  decidable_of_iff (v.toList ≠ [] ∧ v.toList.all valueChar = true)
    ⟨fun ⟨h1,h2⟩ => ⟨h1,List.all_eq_true.mp h2⟩,fun h => ⟨h.nonempty,List.all_eq_true.mpr h.chars⟩⟩

theorem plainChar_spec {c : Char} (h : plainChar c = true) : isBlack c = true ∧ isBlank c = false ∧
    c ≠ ':' ∧ c ≠ '/' ∧ c ≠ '\\' ∧ c ≠ ',' ∧ c ≠ '"' := by
  simp only [plainChar,Bool.and_eq_true,decide_eq_true_eq] at h
  obtain ⟨⟨⟨⟨⟨⟨h1,h2⟩,h3⟩,h4⟩,h5⟩,h6⟩,h7⟩ := h
  refine ⟨?_,?_,h4,h5,h6,h3,h7⟩
  · simp only [isBlack,Bool.and_eq_true,decide_eq_true_eq]
    omega
  · simp only [isBlank,Bool.and_eq_false_iff,decide_eq_false_iff_not]
    omega

end Names

section Junk

/-- Spaces and comment lines. -/
inductive Junk : Text → Prop
  | nil : Junk []
  | blank {c : Char} {g : Text} (hc : isBlank c = true) (hg : Junk g) : Junk (c :: g)
  | comment {line g : Text} (hl : ∀ c ∈ line, c ≠ '\n' ∧ c ≠ '\x00') (hg : Junk g) :
      Junk ('#' :: (line ++ '\n' :: g))

theorem Junk.append {g g' : Text} (h : Junk g) (h' : Junk g') : Junk (g ++ g') := by
  induction h with
  | nil => exact h'
  | blank hc _ ih => exact Junk.blank hc ih
  | comment hl _ ih =>
    rw [List.cons_append,List.append_assoc,List.cons_append]
    exact Junk.comment hl ih

theorem junk_newline : Junk ['\n'] := Junk.blank rfl Junk.nil

/-- A text that starts with something else, or is at its end. -/
def Start (t : Text) : Prop := isBlank (currentChar t) = false ∧ currentChar t ≠ '#'

theorem start_cons {c : Char} {t : Text} (hb : isBlank c = false) (hc : c ≠ '#') : Start (c :: t) := ⟨hb,hc⟩

theorem start_nil : Start [] := ⟨by decide,by decide⟩

theorem jumpSpace_of_not_blank {t : Text} (h : isBlank (currentChar t) = false) : jumpSpace t = t := by
  cases t with
  | nil => rfl
  | cons c t => exact List.dropWhile_cons_of_neg (by rw [show isBlank c = false from h]; exact Bool.false_ne_true)

theorem jumpLine_comment {line : Text} (hl : ∀ c ∈ line, c ≠ '\n' ∧ c ≠ '\x00') (t : Text) :
    jumpLine ('#' :: (line ++ '\n' :: t)) = t := by
  have hline : ∀ c ∈ '#' :: line, (c ≠ '\n' && c ≠ '\x00') = true := by
    intro c hc
    rcases List.mem_cons.mp hc with rfl | hc
    · rfl
    · simp [hl c hc]
  unfold jumpLine
  rw [← List.cons_append,List.dropWhile_append_of_pos hline,List.dropWhile_cons_of_neg (by decide)]
  rfl

theorem jump_junk {g t : Text} (h : Junk g) (ht : Start t) {n : Nat} (hn : g.length ≤ n) :
    jumpComments n (jumpSpace (g ++ t)) = t := by
  induction h generalizing n with
  | nil =>
    rw [List.nil_append,jumpSpace_of_not_blank ht.1]
    cases n with
    | zero => rfl
    | succ n => rw [jumpComments,if_neg ht.2]
  | @blank c g hc _ ih =>
    have hstep : jumpSpace (c :: (g ++ t)) = jumpSpace (g ++ t) := List.dropWhile_cons_of_pos hc
    rw [List.cons_append,hstep]
    rw [List.length_cons] at hn
    exact ih (by omega)
  | @comment line g hl _ ih =>
    rw [List.cons_append,List.append_assoc,List.cons_append,jumpSpace_of_not_blank (by rfl)]
    cases n with
    | zero => exact absurd hn (by simp)
    | succ n =>
      rw [jumpComments,if_pos (by rfl),jumpLine_comment hl]
      apply ih
      simp only [List.length_cons,List.length_append] at hn
      omega

/-- Spaces and comments in front of a word are jumped over. -/
theorem readWord_junk {g t : Text} (h : Junk g) (ht : Start t) : readWord (g ++ t) = readToken t := by
  unfold readWord
  rw [jump_junk h ht (by rw [List.length_append]; omega)]

theorem readWord_start {t : Text} (ht : Start t) : readWord t = readToken t := readWord_junk Junk.nil ht

end Junk

section Tokens
variable {t : Text} {w : String}

theorem readWord_slash (h : currentChar t ≠ '*') : readWord ('/' :: t) = .ok ("/",t) := by
  rw [readWord_start (start_cons rfl (by decide))]
  unfold readToken jumpCComment
  rw [if_pos (by rfl),if_neg (show ¬ nextChar ('/' :: t) = '*' from h)]
  rfl

theorem readWord_colon (t : Text) : readWord (':' :: t) = .ok (":",t) := by
  rw [readWord_start (start_cons rfl (by decide))]
  rfl

theorem readWord_comma (t : Text) : readWord (',' :: t) = .ok (",",t) := by
  rw [readWord_start (start_cons rfl (by decide))]
  rfl

theorem readWord_arrow (t : Text) : readWord ('-' :: '>' :: t) = .ok ("->",t) := by
  rw [readWord_start (start_cons rfl (by decide))]
  rfl

/-- What ends a word. -/
structure Stops (t : Text) : Prop where
  word : wordChars t = ([],t)
  next : currentChar t ≠ '>'

theorem stops_slash (t : Text) : Stops ('/' :: t) := ⟨by simp [wordChars],by simp [currentChar]⟩

theorem stops_colon (t : Text) : Stops (':' :: t) := ⟨by simp [wordChars],by simp [currentChar]⟩

theorem stops_arrow (t : Text) : Stops ('-' :: '>' :: t) :=
  ⟨by simp [wordChars,currentChar],by simp [currentChar]⟩

theorem wordChars_append {l : Text} (hp : ∀ c ∈ l, plainChar c = true) (ha : ¬ ['-','>'] <:+: l)
    (ht : Stops t) : wordChars (l ++ t) = (l,t) := by
  induction l with
  | nil => exact ht.word
  | cons c l ih =>
    obtain ⟨hblack,-,h1,h2,h3,h4,-⟩ := plainChar_spec (hp c List.mem_cons_self)
    have harrow : ¬ (c = '-' ∧ currentChar (l ++ t) = '>') := by
      rintro ⟨rfl,hnext⟩
      cases l with
      | nil => exact ht.next hnext
      | cons d l =>
        apply ha
        rw [show d = '>' from hnext]
        exact (List.prefix_append ['-','>'] l).isInfix
    have ih := ih (fun d hd => hp d (List.mem_cons_of_mem _ hd)) (fun h => ha (h.trans (List.infix_cons (List.infix_refl l))))
    rw [List.cons_append,wordChars,if_pos ⟨hblack,h1,h2,h3,h4,harrow⟩,ih]

theorem start_name (h : NameOk w) : Start (w.toList ++ t) := by
  obtain ⟨c,l,hl⟩ := List.exists_cons_of_ne_nil h.nonempty
  have hc := plainChar_spec (h.plain c (by rw [hl]; exact List.mem_cons_self))
  have hh := h.hash
  rw [hl] at hh ⊢
  refine ⟨hc.2.1,fun he => hh ?_⟩
  rw [← he]
  rfl

theorem readToken_name (h : NameOk w) (ht : Stops t) : readToken (w.toList ++ t) = .ok (w,t) := by
  have hword := wordChars_append h.plain h.arrow ht
  obtain ⟨c,l,hl⟩ := List.exists_cons_of_ne_nil h.nonempty
  obtain ⟨-,-,h1,h2,h3,h4,h5⟩ := plainChar_spec (h.plain c (by rw [hl]; exact List.mem_cons_self))
  have hc : currentChar (w.toList ++ t) = c := by rw [hl]; rfl
  have harrow : ¬ (c = '-' ∧ nextChar (w.toList ++ t) = '>') := by
    rintro ⟨rfl,hn⟩
    rw [hl] at hn hword
    have : wordChars ('-' :: (l ++ t)) = ([],'-' :: (l ++ t)) := by
      rw [wordChars,if_neg]
      exact fun hh => hh.2.2.2.2.2 ⟨rfl,hn⟩
    rw [List.cons_append,this] at hword
    simp at hword
  unfold readToken jumpCComment
  rw [hc,if_neg h2]
  simp only
  rw [hc,if_neg (by simp [h1,h2,h3,h4]),if_neg harrow,if_neg h5,hword]
  simp only
  rw [if_neg h.nonempty,String.ofList_toList]

theorem readWord_name (h : NameOk w) (ht : Stops t) : readWord (w.toList ++ t) = .ok (w,t) := by
  rw [readWord_start (start_name h)]
  exact readToken_name h ht

theorem classLex_name (h : NameOk w) : classLex w = .string := by
  have hne : ∀ x : String, (∃ c ∈ x.toList, plainChar c = false) → w ≠ x := by
    rintro x ⟨c,hc,hf⟩ rfl
    rw [h.plain c hc] at hf
    cases hf
  have hempty : w ≠ "" := by
    rintro rfl
    exact h.nonempty rfl
  have harrow : w ≠ "->" := by
    rintro rfl
    exact h.arrow (List.infix_refl _)
  unfold classLex
  rw [if_neg hempty,if_neg (hne "/" ⟨'/',by decide,by decide⟩),
    if_neg (hne "\\" ⟨'\\',by decide,by decide⟩),if_neg (hne "," ⟨',',by decide,by decide⟩),
    if_neg (hne ":" ⟨':',by decide,by decide⟩),if_neg harrow]

end Tokens

section Values
variable {t : Text}

theorem fullString_plain {c : Char} (h1 : c ≠ '"') (h2 : c ≠ '\\') (h3 : c ≠ '\x00') (t : Text) :
    fullString (c :: t) = (fullString t).map (fun x => (c :: x.1,x.2)) := by
  rw [fullString.eq_def]
  split
  · rename_i he
    cases he
  · rename_i he
    exact absurd (List.cons.inj he).1 h1
  · rename_i he
    exact absurd (List.cons.inj he).1 h2
  · rename_i he
    obtain ⟨rfl,rfl⟩ := List.cons.inj he
    rw [if_neg h3]

/-- What was escaped is read back up to the closing quote. -/
theorem fullString_escape {l : Text} (h : ∀ c ∈ l, c ≠ '\\' ∧ c ≠ '\x00') (t : Text) :
    fullString (escapeDoubleQuote l ++ '"' :: t) = some (l,t) := by
  induction l with
  | nil => rfl
  | cons c l ih =>
    have ih := ih (fun d hd => h d (List.mem_cons_of_mem _ hd))
    obtain ⟨h1,h2⟩ := h c List.mem_cons_self
    unfold escapeDoubleQuote at ih ⊢
    rw [List.flatMap_cons,List.append_assoc]
    by_cases hq : c = '"'
    · subst hq
      rw [if_pos rfl,List.cons_append,List.singleton_append,fullString,ih]
      rfl
    · rw [if_neg hq,List.singleton_append,fullString_plain hq h1 h2,ih]
      rfl

theorem escape_of_no_quote {l : Text} (h : '"' ∉ l) : escapeDoubleQuote l = l := by
  induction l with
  | nil => rfl
  | cons c l ih =>
    have hc : c ≠ '"' := fun he => h (he ▸ List.mem_cons_self)
    unfold escapeDoubleQuote at ih ⊢
    rw [List.flatMap_cons,if_neg hc,ih (fun hm => h (List.mem_cons_of_mem _ hm))]
    rfl

theorem jumpSpace_blanks {b : Text} (hb : ∀ c ∈ b, isBlank c = true) (ht : isBlank (currentChar t) = false) :
    jumpSpace (b ++ t) = t := by
  have h : jumpSpace (b ++ t) = jumpSpace t := List.dropWhile_append_of_pos hb
  rw [h,jumpSpace_of_not_blank ht]

/-- A text in quotes is read whole. -/
theorem readFullWord_quoted {b l : Text} (hb : ∀ c ∈ b, isBlank c = true) (hne : l ≠ [])
    (hl : ∀ c ∈ l, c ≠ '\\' ∧ c ≠ '\x00') (t : Text) :
    readFullWord (b ++ ('"' :: (escapeDoubleQuote l ++ '"' :: t))) = .ok (String.ofList l,t) := by
  unfold readFullWord
  rw [jumpSpace_blanks hb (by rfl)]
  simp only
  rw [if_neg (by simp [currentChar]),if_pos (by rfl),List.tail_cons,fullString_escape hl]
  simp only
  rw [if_neg hne]

/-- A text without quotes is read up to a comma or to the end of the line. -/
theorem readFullWord_bare {b l : Text} (hb : ∀ c ∈ b, isBlank c = true) (hne : l ≠ [])
    (hl : ∀ c ∈ l, isBlack c = true ∧ isBlank c = false ∧ c ≠ '\\' ∧ c ≠ ',' ∧ c ≠ '"') {c : Char}
    (hc : c = ',' ∨ c = '\n') (t : Text) :
    readFullWord (b ++ (l ++ c :: t)) = .ok (String.ofList l,c :: t) := by
  obtain ⟨d,l',hd⟩ := List.exists_cons_of_ne_nil hne
  obtain ⟨-,hblank,h1,h2,h3⟩ := hl d (by rw [hd]; exact List.mem_cons_self)
  have hcur : currentChar (l ++ c :: t) = d := by rw [hd]; rfl
  have hall : ∀ x ∈ l, (isBlack x && x ≠ '\\' && x ≠ ',') = true := by
    intro x hx
    obtain ⟨hk,-,hx1,hx2,-⟩ := hl x hx
    simp [hk,hx1,hx2]
  have hstop : (isBlack c && c ≠ '\\' && c ≠ ',') = false := by
    rcases hc with rfl | rfl
    · rfl
    · rfl
  unfold readFullWord
  rw [jumpSpace_blanks hb (by rw [hcur]; exact hblank)]
  simp only
  rw [hcur,if_neg (by simp [h1,h2]),if_neg h3,List.takeWhile_append_of_pos hall,
    List.dropWhile_append_of_pos hall,List.takeWhile_cons_of_neg (by rw [hstop]; exact Bool.false_ne_true),
    List.dropWhile_cons_of_neg (by rw [hstop]; exact Bool.false_ne_true),List.append_nil,if_neg hne]

/-- A text in the file that is read as one value. -/
def Written (x : Text) (v : String) : Prop :=
  classLex v = .string ∧ ∀ b c t, (∀ d ∈ b, isBlank d = true) → c = ',' ∨ c = '\n' →
    readFullWord (b ++ (x ++ c :: t)) = .ok (v,c :: t)

theorem valueChar_spec {c : Char} (h : valueChar c = true) : c ≠ '\\' ∧ c ≠ '\x00' ∧ c ≠ ',' ∧
    (c ≠ ' ' → c ≠ '\n' → isBlack c = true ∧ isBlank c = false) := by
  have hn : c ≠ ' ' → c.toNat ≠ 32 := by
    intro hs he
    exact hs (Char.toNat_inj.mp he)
  simp only [valueChar,Bool.or_eq_true,decide_eq_true_eq,Bool.and_eq_true] at h
  rcases h with rfl | ⟨⟨⟨h1,h2⟩,h3⟩,h4⟩
  · exact ⟨by decide,by decide,by decide,fun _ h => absurd rfl h⟩
  · refine ⟨h4,?_,h3,?_⟩
    · rintro rfl
      exact absurd h1 (by decide)
    · intro hs _
      have := hn hs
      constructor
      · simp only [isBlack,Bool.and_eq_true,decide_eq_true_eq]
        omega
      · simp only [isBlank,Bool.and_eq_false_iff,decide_eq_false_iff_not]
        omega

/-- A value that is no word with a meaning of its own. -/
def Speechless (v : String) : Prop := v ≠ "/" ∧ v ≠ ":" ∧ v ≠ "->"

theorem classLex_value {v : String} (h : ValueOk v) (hs : Speechless v) : classLex v = .string := by
  have hempty : v ≠ "" := by
    rintro rfl
    exact h.nonempty rfl
  have hback : v ≠ "\\" := by
    rintro rfl
    exact absurd (h.chars '\\' (by decide)) (by decide)
  have hcomma : v ≠ "," := by
    rintro rfl
    exact absurd (h.chars ',' (by decide)) (by decide)
  unfold classLex
  rw [if_neg hempty,if_neg hs.1,if_neg hback,if_neg hcomma,if_neg hs.2.1,if_neg hs.2.2]

theorem written_value {v : String} (h : ValueOk v) (hs : Speechless v) : Written (writeStringValue v) v := by
  refine ⟨classLex_value h hs,?_⟩
  intro b c t hb hc
  have hesc : (if '"' ∈ v.toList then escapeDoubleQuote v.toList else v.toList) =
      escapeDoubleQuote v.toList := by
    split
    · rfl
    · rename_i hq
      rw [escape_of_no_quote hq]
  unfold writeStringValue
  simp only
  rw [hesc]
  by_cases hq : ' ' ∈ v.toList ∨ '\n' ∈ v.toList ∨ '"' ∈ v.toList
  · rw [if_pos hq,List.append_assoc,List.append_assoc,List.singleton_append,List.singleton_append,
      readFullWord_quoted hb h.nonempty (fun d hd => ⟨(valueChar_spec (h.chars d hd)).1,
        (valueChar_spec (h.chars d hd)).2.1⟩),String.ofList_toList]
  · have hno : ' ' ∉ v.toList ∧ '\n' ∉ v.toList ∧ '"' ∉ v.toList :=
      ⟨fun hm => hq (Or.inl hm),fun hm => hq (Or.inr (Or.inl hm)),fun hm => hq (Or.inr (Or.inr hm))⟩
    rw [if_neg hq,List.nil_append,List.append_nil,escape_of_no_quote hno.2.2,
      readFullWord_bare hb h.nonempty ?_ hc,String.ofList_toList]
    intro d hd
    obtain ⟨h1,-,h2,h3⟩ := valueChar_spec (h.chars d hd)
    obtain ⟨h4,h5⟩ := h3 (fun he => hno.1 (he ▸ hd)) (fun he => hno.2.1 (he ▸ hd))
    exact ⟨h4,h5,h1,h2,fun he => hno.2.2 (he ▸ hd)⟩

end Values

end CppTango.Db
