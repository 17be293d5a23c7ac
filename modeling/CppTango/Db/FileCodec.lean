import CppTango.Db.FileStatements
import CppTango.Lib.Outcome

namespace CppTango.Db

open CppTango.Lib CppTango.Device

section Values

/-- A value that is written in quotes. -/
def Quoted (v : String) : Prop := ' ' ∈ v.toList ∨ '\n' ∈ v.toList ∨ '"' ∈ v.toList

instance (v : String) : Decidable (Quoted v) := inferInstanceAs (Decidable (_ ∨ _))

def bareChar (c : Char) : Bool := isBlack c && c ≠ '\\' && c ≠ ','

/-- A value that its text in the file gives back: no word with a meaning of its own, without a
backslash in quotes, and with plain characters only out of them. -/
def ReadableValue (v : String) : Prop :=
  v ≠ "" ∧ Speechless v ∧
    if Quoted v then '\\' ∉ v.toList else ∀ c ∈ v.toList, bareChar c = true

instance (v : String) : Decidable (Speechless v) := inferInstanceAs (Decidable (_ ∧ _ ∧ _))

instance (v : String) : Decidable (ReadableValue v) :=
  haveI : Decidable (∀ c ∈ v.toList, bareChar c = true) :=
    decidable_of_iff (v.toList.all bareChar = true) List.all_eq_true
  inferInstanceAs (Decidable (_ ∧ _ ∧ _))

theorem bareChar_spec {c : Char} (h : bareChar c = true) : isBlack c = true ∧ c ≠ '\\' ∧ c ≠ ',' := by
  simp only [bareChar,Bool.and_eq_true,decide_eq_true_eq] at h
  exact ⟨h.1.1,h.1.2,h.2⟩

theorem not_blank_of_black {c : Char} (h : isBlack c = true) : isBlank c = false := by
  simp only [isBlack,Bool.and_eq_true,decide_eq_true_eq] at h
  simp only [isBlank,Bool.and_eq_false_iff,decide_eq_false_iff_not]
  omega

theorem ne_nil_of_ne {v : String} (h : v ≠ "") : v.toList ≠ [] := by
  intro he
  exact h (String.toList_inj.mp he)

theorem classLex_string {v : String} (h : v ≠ "" ∧ v ≠ "\\" ∧ v ≠ "," ∧ Speechless v) :
    classLex v = .string := by
  obtain ⟨h1,h2,h3,h4,h5,h6⟩ := h
  unfold classLex
  rw [if_neg h1,if_neg h4,if_neg h2,if_neg h3,if_neg h5,if_neg h6]

theorem of_classLex_string {v : String} (h : classLex v = .string) :
    v ≠ "" ∧ v ≠ "\\" ∧ v ≠ "," ∧ Speechless v := by
  refine ⟨?_,?_,?_,?_,?_,?_⟩
  all_goals
    rintro rfl
    exact absurd h (by decide)

/-- A text that is no separator and no quote is written as it is. -/
theorem writeStringValue_bare {v : String} (h : ¬ Quoted v) : writeStringValue v = v.toList := by
  have hq : '"' ∉ v.toList := fun hm => h (Or.inr (Or.inr hm))
  unfold Quoted at h
  unfold writeStringValue
  simp only
  rw [if_neg h,if_neg hq,List.nil_append,List.append_nil]

theorem writeStringValue_quoted {v : String} (h : Quoted v) :
    writeStringValue v = '"' :: (escapeDoubleQuote v.toList ++ ['"']) := by
  unfold Quoted at h
  unfold writeStringValue
  simp only
  rw [if_pos h]
  split
  · rfl
  · rename_i hq
    rw [escape_of_no_quote hq]
    rfl

theorem written_readable {v : String} (h : ReadableValue v) (hnul : '\x00' ∉ v.toList) :
    Written (writeStringValue v) v := by
  obtain ⟨hne,hs,hchars⟩ := h
  have hnil := ne_nil_of_ne hne
  by_cases hq : Quoted v
  · rw [if_pos hq] at hchars
    refine ⟨classLex_string ⟨hne,?_,?_,hs⟩,?_⟩
    · rintro rfl
      exact hchars (by decide)
    · rintro rfl
      exact absurd hq (by decide)
    · intro b c t hb _
      rw [writeStringValue_quoted hq,List.cons_append,List.append_assoc,List.singleton_append,
        readFullWord_quoted hb hnil (fun d hd => ⟨fun he => hchars (he ▸ hd),fun he => hnul (he ▸ hd)⟩),
        String.ofList_toList]
  · rw [if_neg hq] at hchars
    refine ⟨classLex_string ⟨hne,?_,?_,hs⟩,?_⟩
    · rintro rfl
      exact absurd (hchars '\\' (by decide)) (by decide)
    · rintro rfl
      exact absurd (hchars ',' (by decide)) (by decide)
    · intro b c t hb hc
      rw [writeStringValue_bare hq,readFullWord_bare hb hnil ?_ hc,String.ofList_toList]
      intro d hd
      obtain ⟨h1,h2,h3⟩ := bareChar_spec (hchars d hd)
      exact ⟨h1,not_blank_of_black h1,h2,h3,fun he => hq (Or.inr (Or.inr (he ▸ hd)))⟩

end Values

section Quotes
variable {t t' : Text}

theorem escape_quote (w : Text) : escapeDoubleQuote ('"' :: w) = '\\' :: '"' :: escapeDoubleQuote w := rfl

theorem escape_cons {c : Char} (h : c ≠ '"') (w : Text) :
    escapeDoubleQuote (c :: w) = c :: escapeDoubleQuote w := by
  unfold escapeDoubleQuote
  rw [List.flatMap_cons,if_neg h]
  rfl

theorem fullString_backslash (c : Char) (t : Text) :
    fullString ('\\' :: c :: t) = (fullString t).map (fun x => (c :: x.1,x.2)) := by rw [fullString]

theorem map_cons_eq_some {c : Char} {l : Text} {r : Option (Text × Text)} :
    r.map (fun x => (c :: x.1,x.2)) = some (l,t') ↔ ∃ l', l = c :: l' ∧ r = some (l',t') := by
  rw [Option.map_eq_some_iff]
  constructor
  · rintro ⟨⟨l',u⟩,hr,he⟩
    simp only [Prod.mk.injEq] at he
    obtain ⟨rfl,rfl⟩ := he
    exact ⟨l',rfl,hr⟩
  · rintro ⟨l',rfl,hr⟩
    exact ⟨(l',t'),hr,rfl⟩

/-- What is read of a character that is no backslash. -/
theorem fullString_escape_cons {c : Char} {w l : Text} (hc : c ≠ '\\' ∧ c ≠ '\x00')
    (h : fullString (escapeDoubleQuote (c :: w) ++ t) = some (l,t')) :
    ∃ l', l = c :: l' ∧ fullString (escapeDoubleQuote w ++ t) = some (l',t') := by
  by_cases hq : c = '"'
  · subst hq
    rw [escape_quote,List.cons_append,List.cons_append,fullString_backslash] at h
    exact map_cons_eq_some.mp h
  · rw [escape_cons hq,List.cons_append,fullString_plain hq hc.1 hc.2] at h
    exact map_cons_eq_some.mp h

/-- A backslash that is read from an escaped text was one in front of a quote, or one of two. -/
theorem fullString_escape_backslash {w l : Text}
    (h : fullString (escapeDoubleQuote ('\\' :: w) ++ '"' :: t) = some ('\\' :: l,t')) :
    (∃ u, w = '"' :: u ∧ l = [] ∧ t' = escapeDoubleQuote u ++ '"' :: t) ∨
      ∃ u, w = '\\' :: u ∧ fullString (escapeDoubleQuote u ++ '"' :: t) = some (l,t') := by
  rw [escape_cons (by decide),List.cons_append] at h
  cases w with
  | nil =>
    rw [show escapeDoubleQuote [] ++ '"' :: t = '"' :: t from rfl,fullString_backslash] at h
    obtain ⟨l',hl,-⟩ := map_cons_eq_some.mp h
    exact absurd (List.cons.inj hl).1 (by decide)
  | cons d w =>
    by_cases hd : d = '"'
    · subst hd
      rw [escape_quote,List.cons_append,List.cons_append,fullString_backslash] at h
      obtain ⟨l',hl,hr⟩ := map_cons_eq_some.mp h
      have hend : some (([] : Text),escapeDoubleQuote w ++ '"' :: t) = some (l',t') := hr
      simp only [Option.some.injEq,Prod.mk.injEq] at hend
      exact .inl ⟨w,rfl,(List.cons.inj hl).2.trans hend.1.symm,hend.2.symm⟩
    · rw [escape_cons hd,List.cons_append,fullString_backslash] at h
      obtain ⟨l',hl,hr⟩ := map_cons_eq_some.mp h
      obtain ⟨rfl,rfl⟩ := List.cons.inj hl
      exact .inr ⟨w,rfl,hr⟩

/-- An escaped text is never read with more backslashes in front than it has. -/
theorem fullString_escape_more (n : Nat) {w : Text} (hn : w.length ≤ n) (hnul : '\x00' ∉ w) (k : Nat) :
    fullString (escapeDoubleQuote w ++ '"' :: t) ≠ some ('\\' :: (List.replicate k '\\' ++ w),t') := by
  induction n generalizing w k with
  | zero =>
    rw [List.eq_nil_of_length_eq_zero (Nat.le_zero.mp hn)]
    intro h
    cases h
  | succ n ih =>
    intro h
    cases w with
    | nil => cases h
    | cons c w =>
      have hnul' : '\x00' ∉ w := fun hm => hnul (List.mem_cons_of_mem _ hm)
      by_cases hc : c = '\\'
      · subst hc
        rcases fullString_escape_backslash h with ⟨u,rfl,hl,-⟩ | ⟨u,rfl,hr⟩
        · simp at hl
        · have hmore : List.replicate k '\\' ++ '\\' :: '\\' :: u =
              '\\' :: (List.replicate (k + 1) '\\' ++ u) := by
            rw [List.append_cons,List.append_cons,← List.replicate_succ',← List.replicate_succ']
            rfl
          rw [hmore] at hr
          simp only [List.length_cons] at hn
          exact ih (by omega) (fun hm => hnul' (List.mem_cons_of_mem _ hm)) (k + 1) hr
      · obtain ⟨l,hl,-⟩ := fullString_escape_cons ⟨hc,fun he => hnul (he ▸ List.mem_cons_self)⟩ h
        exact hc (List.cons.inj hl).1.symm

/-- Only a text without backslashes is read back from its escaped form. -/
theorem fullString_escape_inv {w : Text} (hnul : '\x00' ∉ w)
    (h : fullString (escapeDoubleQuote w ++ '"' :: t) = some (w,t')) : '\\' ∉ w := by
  induction w with
  | nil => exact List.not_mem_nil
  | cons c w ih =>
    have hnul' : '\x00' ∉ w := fun hm => hnul (List.mem_cons_of_mem _ hm)
    by_cases hc : c = '\\'
    · subst hc
      rcases fullString_escape_backslash h with ⟨u,rfl,hl,-⟩ | ⟨u,rfl,hr⟩
      · cases hl
      · exact absurd hr (fullString_escape_more u.length le_rfl (fun hm => hnul' (List.mem_cons_of_mem _ hm)) 0)
    · obtain ⟨l,hl,hr⟩ := fullString_escape_cons ⟨hc,fun he => hnul (he ▸ List.mem_cons_self)⟩ h
      rw [← (List.cons.inj hl).2] at hr
      intro hm
      rcases List.mem_cons.mp hm with he | hm
      · exact hc he.symm
      · exact ih hnul' hr hm

end Quotes

section Words
variable {t t' : Text} {v : String}

theorem currentChar_eq {c : Char} (hc : c ≠ '\x00') (h : currentChar t = c) : t = c :: t.tail := by
  cases t with
  | nil => exact absurd h.symm hc
  | cons d t =>
    rw [show d = c from h]
    rfl

theorem bare_null : ∀ c ∈ lexicalWordNull.toList, bareChar c = true := List.all_eq_true.mp (by decide)

/-- Where a word of a value comes from. -/
inductive FullWord (t : Text) (v : String) (t' : Text) : Prop
  | comma (hv : v = ",")
  | aslash (hv : v = "\\") (ht : jumpSpace t = '\\' :: t')
  | bare (hv : ∀ c ∈ v.toList, bareChar c = true) (ht : currentChar (jumpSpace t) ≠ '"')
  | null (hv : v = lexicalWordNull)
  | quoted {u : Text} (ht : jumpSpace t = '"' :: u) (hu : fullString u = some (v.toList,t'))

theorem fullWord_of_read (h : readFullWord t = .ok (v,t')) : FullWord t v t' := by
  unfold readFullWord at h
  simp only at h
  split at h
  · rename_i hc
    cases h
    rcases hc with hc | hc
    · exact FullWord.comma (by rw [hc])
    · exact FullWord.aslash (by rw [hc]) (currentChar_eq (by decide) hc)
  · split at h
    · rename_i hq
      split at h
      · cases h
      · rename_i word u hu
        cases h
        split
        · exact FullWord.null rfl
        · apply FullWord.quoted (currentChar_eq (by decide) hq)
          rw [hu,String.toList_ofList]
    · rename_i hq
      cases h
      split
      · exact FullWord.null rfl
      · apply FullWord.bare _ hq
        rw [String.toList_ofList]
        intro c hc
        exact List.mem_takeWhile_imp hc

end Words

section Ahead
variable {c : Char} {t t' : Text}

/-- What stands behind a value: a comma, or the end of the line and no text in quotes. -/
def Ahead (c : Char) (t : Text) : Prop :=
  c = ',' ∨ c = '\n' ∧ currentChar (jumpSpace t) ≠ '"' ∧ currentChar (jumpSpace t) ≠ '\\'

theorem jumpSpace_cons_blank {d : Char} (hd : isBlank d = true) (t : Text) : jumpSpace (d :: t) = jumpSpace t :=
  List.dropWhile_cons_of_pos hd

theorem jumpSpace_cons {d : Char} (hd : isBlank d = false) (t : Text) : jumpSpace (d :: t) = d :: t :=
  jumpSpace_of_not_blank (t := d :: t) hd

theorem Ahead.no_quote (h : Ahead c t) {l : Text} (hl : '"' ∉ l) : currentChar (jumpSpace (l ++ c :: t)) ≠ '"' := by
  induction l with
  | nil =>
    rcases h with rfl | ⟨rfl,h,-⟩
    · rw [List.nil_append,jumpSpace_cons (by rfl)]
      exact (by decide : ',' ≠ '"')
    · rwa [List.nil_append,jumpSpace_cons_blank (by rfl)]
  | cons d l ih =>
    rw [List.cons_append]
    by_cases hd : isBlank d = true
    · rw [jumpSpace_cons_blank hd]
      exact ih (fun hm => hl (List.mem_cons_of_mem _ hm))
    · rw [jumpSpace_cons (by simpa using hd)]
      exact fun he => hl (he ▸ List.mem_cons_self)

/-- A backslash that is met first is one of the value. -/
theorem Ahead.aslash (h : Ahead c t) {l : Text} (hj : jumpSpace (l ++ c :: t) = '\\' :: t') :
    ∃ b u, l = b ++ '\\' :: u ∧ t' = u ++ c :: t := by
  induction l with
  | nil =>
    rcases h with rfl | ⟨rfl,-,h⟩
    · rw [List.nil_append,jumpSpace_cons (by rfl)] at hj
      exact absurd (List.cons.inj hj).1 (by decide)
    · rw [List.nil_append,jumpSpace_cons_blank (by rfl)] at hj
      rw [hj] at h
      exact absurd rfl h
  | cons d l ih =>
    rw [List.cons_append] at hj
    by_cases hd : isBlank d = true
    · rw [jumpSpace_cons_blank hd] at hj
      obtain ⟨b,u,rfl,hu⟩ := ih hj
      exact ⟨d :: b,u,rfl,hu⟩
    · rw [jumpSpace_cons (by simpa using hd)] at hj
      obtain ⟨rfl,rfl⟩ := List.cons.inj hj
      exact ⟨[],l,rfl,rfl⟩

/-- Behind an escaped text the first quote is the closing one, with spaces in front only. -/
theorem quote_of_escape {l : Text} (h : jumpSpace (escapeDoubleQuote l ++ '"' :: t) = '"' :: t') : t' = t := by
  induction l with
  | nil =>
    have hj : jumpSpace ('"' :: t) = '"' :: t' := h
    rw [jumpSpace_cons (by rfl)] at hj
    exact (List.cons.inj hj).2.symm
  | cons d l ih =>
    by_cases hq : d = '"'
    · subst hq
      rw [escape_quote,List.cons_append,jumpSpace_cons (by rfl)] at h
      exact absurd (List.cons.inj h).1 (by decide)
    · rw [escape_cons hq,List.cons_append] at h
      by_cases hd : isBlank d = true
      · rw [jumpSpace_cons_blank hd] at h
        exact ih h
      · rw [jumpSpace_cons (by simpa using hd)] at h
        exact absurd (List.cons.inj h).1 hq

theorem fullString_escape_empty {l : Text} (hnul : '\x00' ∉ l)
    (h : fullString (escapeDoubleQuote l ++ '"' :: t) = some ([],t')) : l = [] := by
  cases l with
  | nil => rfl
  | cons d l =>
    by_cases hd : d = '\\'
    · subst hd
      rw [escape_cons (by decide),List.cons_append] at h
      obtain ⟨e,u,he⟩ : ∃ e u, escapeDoubleQuote l ++ '"' :: t = e :: u :=
        List.exists_cons_of_ne_nil (by simp)
      rw [he,fullString_backslash] at h
      obtain ⟨_,hl,-⟩ := map_cons_eq_some.mp h
      cases hl
    · obtain ⟨_,hl,-⟩ := fullString_escape_cons ⟨hd,fun he => hnul (he ▸ List.mem_cons_self)⟩ h
      cases hl

end Ahead

section Readback
variable {c : Char} {t t' t0 : Text} {v : String}

/-- A text without quotes gives plain words only. -/
theorem bare_of_read (ha : Ahead c t) {l : Text} (hl : '"' ∉ l) (hv : classLex v = .string)
    (h : readFullWord (l ++ c :: t) = .ok (v,t')) : ∀ d ∈ v.toList, bareChar d = true := by
  obtain ⟨-,hback,hcomma,-⟩ := of_classLex_string hv
  cases fullWord_of_read h with
  | comma he => exact absurd he hcomma
  | aslash he _ => exact absurd he hback
  | bare hb _ => exact hb
  | null he =>
    rw [he]
    exact bare_null
  | quoted hj _ =>
    refine absurd ?_ (ha.no_quote hl)
    rw [hj]
    rfl

/-- The first backslash of a text without quotes, read as a word. -/
theorem rest_of_aslash (ha : Ahead c t) {l : Text} (hl : '"' ∉ l)
    (h : readFullWord (l ++ c :: t) = .ok ("\\",t0)) : ∃ b u, l = b ++ '\\' :: u ∧ t0 = u ++ c :: t := by
  cases fullWord_of_read h with
  | comma he => exact absurd he (by decide)
  | aslash _ hj => exact ha.aslash hj
  | bare hb _ => exact absurd (hb '\\' (by decide)) (by decide)
  | null he => exact absurd he (by decide)
  | quoted hj _ =>
    refine absurd ?_ (ha.no_quote hl)
    rw [hj]
    rfl

theorem jump_quoted {b : Text} (hb : ∀ d ∈ b, isBlank d = true) (u : Text) :
    jumpSpace (b ++ '"' :: u) = '"' :: u := jumpSpace_blanks hb (by rfl)

/-- A word read from a text in quotes. -/
theorem string_of_quoted {b u : Text} (hb : ∀ d ∈ b, isBlank d = true) (hnull : v ≠ lexicalWordNull)
    (hcomma : v ≠ ",") (h : readFullWord (b ++ '"' :: u) = .ok (v,t')) :
    fullString u = some (v.toList,t') := by
  have hj := jump_quoted hb u
  cases fullWord_of_read h with
  | comma he => exact absurd he hcomma
  | aslash _ ht =>
    rw [hj] at ht
    exact absurd (List.cons.inj ht).1 (by decide)
  | bare _ ht =>
    rw [hj] at ht
    exact absurd rfl ht
  | null he => exact absurd he hnull
  | quoted ht hu =>
    rw [hj] at ht
    rw [(List.cons.inj ht).2]
    exact hu

/-- A backslash alone that was read from the text of a value in quotes: the value goes on with a
quote, and does not come out of the rest. -/
theorem not_read_behind (hc : c = ',' ∨ c = '\n') (hq : Quoted v) (hv : classLex v = .string)
    (hnul : '\x00' ∉ v.toList)
    (h : fullString (escapeDoubleQuote v.toList ++ '"' :: c :: t) = some (['\\'],t0)) :
    readFullWord t0 ≠ .ok (v,t') := by
  obtain ⟨-,hback,hcomma,-⟩ := of_classLex_string hv
  intro hread
  have hshape : ∃ u, v.toList = '\\' :: '"' :: u ∧ t0 = escapeDoubleQuote u ++ '"' :: c :: t := by
    cases hl : v.toList with
    | nil =>
      rw [hl] at h
      cases h
    | cons d l =>
      rw [hl] at h hnul
      have hnul' : '\x00' ∉ l := fun hm => hnul (List.mem_cons_of_mem _ hm)
      by_cases hd : d = '\\'
      · subst hd
        rcases fullString_escape_backslash h with ⟨u,rfl,-,ht⟩ | ⟨u,rfl,hr⟩
        · exact ⟨u,rfl,ht⟩
        · have hu := fullString_escape_empty (fun hm => hnul' (List.mem_cons_of_mem _ hm)) hr
          rw [hu] at hl
          unfold Quoted at hq
          rw [hl] at hq
          exact absurd hq (by decide)
      · obtain ⟨_,he,-⟩ := fullString_escape_cons ⟨hd,fun he => hnul (he ▸ List.mem_cons_self)⟩ h
        exact absurd (List.cons.inj he).1.symm hd
  obtain ⟨u,hu,rfl⟩ := hshape
  have hnot : ¬ ∀ d ∈ v.toList, bareChar d = true := by
    intro hb
    exact absurd (hb '\\' (by rw [hu]; exact List.mem_cons_self)) (by decide)
  cases fullWord_of_read hread with
  | comma he => exact hcomma he
  | aslash he _ => exact hback he
  | bare hb _ => exact hnot hb
  | null he =>
    rw [he] at hnot
    exact hnot bare_null
  | quoted hj hs =>
    rw [quote_of_escape hj,hu] at hs
    have hplain : c ≠ '"' ∧ c ≠ '\\' ∧ c ≠ '\x00' := by
      rcases hc with rfl | rfl
      · decide
      · decide
    rw [fullString_plain hplain.1 hplain.2.1 hplain.2.2] at hs
    obtain ⟨_,he,-⟩ := map_cons_eq_some.mp hs
    exact hplain.2.1 (List.cons.inj he).1.symm

/-- A word, or the one behind a backslash. -/
def ReadAs (t : Text) (v : String) (t' : Text) : Prop :=
  readFullWord t = .ok (v,t') ∨ ∃ t0, readFullWord t = .ok ("\\",t0) ∧ readFullWord t0 = .ok (v,t')

/-- Only a readable value is read back from its own text. -/
theorem readable_of_read {b : Text} (hb : ∀ d ∈ b, isBlank d = true) (ha : Ahead c t)
    (hv : classLex v = .string) (hnul : '\x00' ∉ v.toList)
    (h : ReadAs (b ++ (writeStringValue v ++ c :: t)) v t') : ReadableValue v := by
  obtain ⟨hne,hback,hcomma,hs⟩ := of_classLex_string hv
  refine ⟨hne,hs,?_⟩
  by_cases hq : Quoted v
  · rw [if_pos hq]
    have hc : c = ',' ∨ c = '\n' := ha.imp_right And.left
    have hnull : v ≠ lexicalWordNull := by
      rintro rfl
      exact absurd hq (by decide)
    rw [writeStringValue_quoted hq,List.cons_append,List.append_assoc,List.singleton_append] at h
    rcases h with h | ⟨t0,h0,h⟩
    · exact fullString_escape_inv hnul (string_of_quoted hb hnull hcomma h)
    · have h0 := string_of_quoted hb (by decide) (by decide) h0
      exact absurd h (not_read_behind hc hq hv hnul h0)
  · rw [if_neg hq]
    have hbq : '"' ∉ b ++ v.toList := by
      intro hm
      rcases List.mem_append.mp hm with hm | hm
      · exact absurd (hb '"' hm) (by decide)
      · exact hq (Or.inr (Or.inr hm))
    rw [writeStringValue_bare hq,← List.append_assoc] at h
    rcases h with h | ⟨t0,h0,h⟩
    · exact bare_of_read ha hbq hv h
    · obtain ⟨b',u,hu,rfl⟩ := rest_of_aslash ha hbq h0
      apply bare_of_read ha _ hv h
      intro hm
      rw [hu] at hbq
      exact hbq (List.mem_append_right _ (List.mem_cons_of_mem _ hm))

end Readback

section Lists
variable {t t' : Text} {word : String}

theorem classLex_aslash {v : String} : classLex v = .aslash ↔ v = "\\" := by
  constructor
  · intro h
    unfold classLex at h
    split at h
    · cases h
    · split at h
      · cases h
      · split at h
        · assumption
        · repeat' split at h
          all_goals cases h
  · rintro rfl
    rfl

theorem parseOneValue_inv {v : String} (h : parseOneValue t = .ok (v,word,t')) :
    classLex v = .string ∧ ∃ u, ReadAs t v u ∧ readWord u = .ok (word,t') := by
  unfold parseOneValue at h
  obtain ⟨⟨value,u⟩,hr,h⟩ := except_bind_ok.mp h
  simp only at h
  have hlast : ∀ {value u}, (if classLex value = .string then
      readWord u >>= fun r => pure (value,r.1,r.2) else throw ParseError.badLex) = .ok (v,word,t') →
      value = v ∧ classLex v = .string ∧ readWord u = .ok (word,t') := by
    intro value u h
    split at h
    · rename_i hs
      obtain ⟨⟨word',t''⟩,hw,he⟩ := except_bind_ok.mp h
      cases he
      exact ⟨rfl,hs,hw⟩
    · cases h
  split at h
  · rename_i hback
    obtain ⟨⟨value',u'⟩,hr',h⟩ := except_bind_ok.mp h
    obtain ⟨rfl,hs,hw⟩ := hlast h
    rw [classLex_aslash.mp hback] at hr
    exact ⟨hs,u',.inr ⟨u,hr,hr'⟩,hw⟩
  · obtain ⟨rfl,hs,hw⟩ := hlast h
    exact ⟨hs,u,.inl hr,hw⟩

theorem parseValues_inv {n : Nat} {vs : List String} (h : parseValues n t = .ok (vs,word,t')) :
    ∃ n' v next u more, parseOneValue t = .ok (v,next,u) ∧ vs = v :: more ∧
      if classLex next = .coma ∨ classLex next = .aslash then parseValues n' u = .ok (more,word,t')
      else more = [] ∧ word = next ∧ t' = u := by
  cases n with
  | zero => cases h
  | succ n =>
    rw [parseValues] at h
    obtain ⟨⟨v,next,u⟩,hr,h⟩ := except_bind_ok.mp h
    simp only at h
    split at h
    · rename_i hsep
      obtain ⟨⟨more,word',t''⟩,hrest,he⟩ := except_bind_ok.mp h
      cases he
      refine ⟨n,v,next,u,more,hr,rfl,?_⟩
      rw [if_pos hsep]
      exact hrest
    · rename_i hsep
      cases h
      refine ⟨n,v,word,t',[],hr,rfl,?_⟩
      rw [if_neg hsep]
      exact ⟨rfl,rfl,rfl⟩

/-- What follows the values: the first word of a statement, perhaps behind comment lines, or the end;
it is no separator and not in quotes. -/
structure Follows (t : Text) (word : String) (t' : Text) : Prop extends NextWord t word t' where
  bare : currentChar (jumpSpace t) ≠ '"'
  start : currentChar (jumpSpace t) ≠ '\\'

variable {v : String} {vs : List String} {margin : Nat}

/-- The first of the values that are written is readable when it is read back. -/
theorem readable_of_parseOneValue {b tail : Text} {c : Char} (hb : Lead b) (ha : Ahead c tail)
    (hnul : '\x00' ∉ v.toList) (h : parseOneValue (b ++ (writeStringValue v ++ c :: tail)) = .ok (v,word,t')) :
    ReadableValue v := by
  obtain ⟨hv,u,hread,-⟩ := parseOneValue_inv h
  cases hb with
  | blanks hb => exact readable_of_read hb ha hv hnul hread
  | @line b hb =>
    have hback : readFullWord ('\\' :: b ++ (writeStringValue v ++ c :: tail)) =
      .ok ("\\",b ++ (writeStringValue v ++ c :: tail)) := rfl
    rcases hread with hread | ⟨t0,h0,hread⟩
    · rw [hback] at hread
      cases hread
      exact absurd hv (by decide)
    · rw [hback] at h0
      cases h0
      exact readable_of_read hb ha hv hnul (.inl hread)

/-- Value after value: those that are read back are readable. -/
theorem readable_of_parseValues (hf : Follows t word t') {n : Nat} {b : Text} (hb : Lead b)
    (hnul : ∀ u ∈ v :: vs, '\x00' ∉ u.toList)
    (h : parseValues n (b ++ (writeStringValue v ++
      (vs.flatMap (fun u => nextLine margin (writeStringValue u)) ++ '\n' :: t))) = .ok (v :: vs,word,t')) :
    ∀ u ∈ v :: vs, ReadableValue u := by
  induction vs generalizing v b n with
  | nil =>
    obtain ⟨n',v',next,rest,more,hone,he,hmore⟩ := parseValues_inv h
    rw [List.flatMap_nil,List.nil_append] at hone
    obtain ⟨rfl,rfl⟩ := List.cons.inj he
    have hv := readable_of_parseOneValue hb (.inr ⟨rfl,hf.bare,hf.start⟩) (hnul v List.mem_cons_self) hone
    intro u hu
    rw [List.mem_singleton.mp hu]
    exact hv
  | cons w ws ih =>
    rw [nextLine_append writeStringValue] at h
    obtain ⟨n',v',next,rest,more,hone,he,hmore⟩ := parseValues_inv h
    obtain ⟨rfl,rfl⟩ := List.cons.inj he
    have hnulv := hnul v List.mem_cons_self
    have hv := readable_of_parseOneValue hb (.inl rfl) hnulv hone
    -- the first value is read as it is, up to its comma
    rw [parseOneValue_written (written_readable hv hnulv) hb (Or.inl rfl) (readWord_comma _)] at hone
    cases hone
    rw [if_pos (Or.inl (by decide))] at hmore
    have hws := ih (lead_margin margin) (fun u hu => hnul u (List.mem_cons_of_mem _ hu)) hmore
    intro u hu
    rcases List.mem_cons.mp hu with rfl | hu
    · exact hv
    · exact hws u hu

end Lists

section Codec
variable {rest t' : Text} {word : String}

/-- The values of a property behind its colon, and the end of the line. -/
def valueText (margin : Nat) (vs : List String) : Text := ' ' :: (writeValues margin vs ++ ['\n'])

/-- At least one value is always read. -/
theorem parseValues_ne_nil {t : Text} {n : Nat} {vs : List String} (h : parseValues n t = .ok (vs,word,t')) :
    vs ≠ [] := by
  obtain ⟨n',v,next,u,more,-,rfl,-⟩ := parseValues_inv h
  exact List.cons_ne_nil _ _

theorem valuesText_readable {margin : Nat} {v : String} {vs : List String} (hf : Follows rest word t')
    (hnul : ∀ u ∈ v :: vs, '\x00' ∉ u.toList) (h : ∀ u ∈ v :: vs, ReadableValue u) :
    parseResourceValue ":" (valueText margin (v :: vs) ++ rest) = .ok (v :: vs,word,t') := by
  have hw : ∀ u ∈ v :: vs, Written (writeStringValue u) u := fun u hu => written_readable (h u hu) (hnul u hu)
  have hparse := valuesText_written hw margin rest word t' hf.toNextWord
  rw [valueText,writeValues,List.cons_append,List.append_assoc]
  exact hparse

/-- The values of a property of a device or of a free object are read back, and the reader is left at
the next statement, exactly when there is a value and every value is readable. -/
theorem values_read_back_iff (margin : Nat) (vs : List String) (hnul : ∀ v ∈ vs, '\x00' ∉ v.toList)
    (hf : Follows rest word t') :
    parseResourceValue ":" (valueText margin vs ++ rest) = .ok (vs,word,t') ↔
      vs ≠ [] ∧ ∀ v ∈ vs, ReadableValue v := by
  constructor
  · intro h
    unfold parseResourceValue at h
    rw [if_neg (by decide)] at h
    have hne := parseValues_ne_nil h
    refine ⟨hne,?_⟩
    obtain ⟨v,ws,rfl⟩ := List.exists_cons_of_ne_nil hne
    rw [valueText,writeValues,List.cons_append,List.append_assoc,List.append_assoc] at h
    have hlead : Lead [' '] := Lead.blanks (fun c hc => by rw [List.mem_singleton.mp hc]; rfl)
    exact readable_of_parseValues hf hlead hnul h
  · rintro ⟨hne,h⟩
    obtain ⟨v,ws,rfl⟩ := List.exists_cons_of_ne_nil hne
    exact valuesText_readable hf hnul h

theorem follows_free : Follows "FREE/Beam->Gain: 2\n".toList "FREE" "/Beam->Gain: 2\n".toList :=
  ⟨⟨rfl,by decide,by decide⟩,by decide,by decide⟩

theorem quoted_values_read_back : parseResourceValue ":" (valueText 4 ["56","a,b \"c\""] ++
    "FREE/Beam->Gain: 2\n".toList) = .ok (["56","a,b \"c\""],"FREE","/Beam->Gain: 2\n".toList) :=
  (values_read_back_iff 4 _ (by decide) follows_free).mpr (by decide)

/-- A comma in a value without spaces makes two values of it. -/
theorem comma_splits_value : (∀ v ∈ ["5,6"], '\x00' ∉ v.toList) ∧
    Follows "FREE/Beam->Gain: 2\n".toList "FREE" "/Beam->Gain: 2\n".toList ∧
    parseResourceValue ":" (valueText 4 ["5,6"] ++ "FREE/Beam->Gain: 2\n".toList) =
      .ok (["5","6"],"FREE","/Beam->Gain: 2\n".toList) ∧ ["5,6"] ≠ ["5","6"] :=
  ⟨by decide,follows_free,by decide +kernel,by decide⟩

end Codec

end CppTango.Db
