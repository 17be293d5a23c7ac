import CppTango.Lib.Text

namespace CppTango.Polling.PoolConf

open CppTango.Lib

abbrev Text := List Char

def lower (s : Text) : Text := s.map Char.toLower

def splitString (s : Text) (delim : Char) : List Text := s.splitOn delim

/-- What both lookups ask of an entry: the first place where the name is found is followed by
a comma or by the end right behind it. -/
def entryHas (dev tmp : Text) : Bool :=
  match find dev tmp with
  | none => false
  | some pos =>
    let poolDevNbChar :=
      match findFrom ',' pos tmp with
      | some endPos => endPos - pos
      | none => tmp.length - pos
    decide (dev.length = poolDevNbChar)

def getDevEntryInPoolConf (conf : List Text) (devName : Text) : Option Nat :=
  conf.findIdx? (entryHas devName)

/-- The index, one past the last when there is none, and the devices of the entry. -/
def getThPolledDevs (conf : List Text) (dev : Text) : Nat × List Text :=
  match conf.findIdx? (fun tmp => entryHas dev (lower tmp)) with
  | none => (conf.length,[])
  | some i => (i,splitString (lower (conf.getD i [])) ',')

structure DevFailed where
  reason : String
  desc : Text
deriving DecidableEq, Repr

/-- What is left of a string with `n` characters erased from a position on. -/
def eraseAt (s : Text) (pos n : Nat) : Text := s.take pos ++ s.drop (pos + n)

/-- The pool configuration in `rem_obj_polling` once the device has no polled object, and
whether the polling thread is to be killed. -/
def remObjPolling (conf : List Text) (arg : Text) : Except DevFailed (List Text × Bool) :=
  let devName := lower arg
  match getDevEntryInPoolConf conf devName with
  | none => .error ⟨"API_NotSupported","Can't find entry for device ".toList ++ arg ++
      " in polling threads pool configuration !".toList⟩
  | some ind =>
    let confEntry := conf.getD ind []
    if ',' ∈ confEntry then
      let pos := (find devName confEntry).getD 0
      if pos + devName.length ≠ confEntry.length then
        .ok (conf.set ind (eraseAt confEntry pos (devName.length + 1)),false)
      else .ok (conf.set ind (confEntry.take (pos - 1)),false)
    else .ok (conf.eraseIdx ind,true)

/-- The pool configuration in `upd_polling_prop` for a device left without polled objects,
and whether the database needs an update. -/
def updPollingProp (dName : Text) : List Text → List Text × Bool
  | [] => ([],false)
  | tmp::rest =>
    if dName <:+: tmp then
      -- with a comma only a copy of the entry is changed
      if ',' ∈ tmp then (tmp :: rest,true) else (rest,true)
    else
      let r := updPollingProp dName rest
      (tmp :: r.1,r.2)

/-- What stands in the lists: a name in lower case, without the separator. -/
structure IsName (e : Text) : Prop where
  ne : e ≠ []
  comma : ',' ∉ e
  lower : lower e = e

instance (e : Text) : Decidable (IsName e) :=
  decidable_of_iff (e ≠ [] ∧ ',' ∉ e ∧ CppTango.Polling.PoolConf.lower e = e)
    ⟨fun ⟨h,h',h''⟩ => ⟨h,h',h''⟩,fun h => ⟨h.ne,h.comma,h.lower⟩⟩

/-- A pool configuration: lists of device names, none of them twice. -/
structure Conf where
  entries : List (List Text)
  ne : ∀ es ∈ entries, es ≠ []
  name : ∀ es ∈ entries, ∀ e ∈ es, IsName e
  nodup : entries.flatten.Nodup

def joined (es : List Text) : Text := [','].intercalate es

def Conf.text (conf : Conf) : List Text := conf.entries.map joined

def Conf.Listed (conf : Conf) (d : Text) : Prop := ∃ es ∈ conf.entries, d ∈ es

theorem lawfulText : LawfulBEq Text := inferInstance

instance (conf : Conf) (d : Text) : Decidable (conf.Listed d) := by
  haveI := lawfulText
  unfold Conf.Listed
  infer_instance

/-- The lists without one device, and without the list that had no other. -/
def dropName (d : Text) (entries : List (List Text)) : List (List Text) :=
  (entries.map (fun es => es.filter (· ≠ d))).filter (· ≠ [])

/-- The four operations treat the configuration as lists of whole names. `n` is the device's
name as it was registered; a request that fails leaves the configuration alone. -/
structure WholeNames (conf : Conf) (n : Text) : Prop where
  entry : getDevEntryInPoolConf conf.text (lower n) =
    conf.entries.findIdx? (fun es => lower n ∈ es)
  devs : (getThPolledDevs conf.text (lower n)).2 =
    (conf.entries.find? (fun es => lower n ∈ es)).getD []
  rem : (match remObjPolling conf.text n with
    | .ok r => r.1
    | .error _ => conf.text) = (dropName (lower n) conf.entries).map joined
  upd : (updPollingProp n conf.text).1 = (dropName (lower n) conf.entries).map joined

/-- Some name of the entry contains the text. -/
def Contains (d : Text) (es : List Text) : Prop := ∃ e ∈ es, d <:+: e

/-- The first name of the entry that contains the text ends with it and has it nowhere before. -/
def endsFirst (d : Text) : List Text → Bool
  | [] => false
  | e::es => if d <:+: e then decide (find d e = some (e.length - d.length)) else endsFirst d es

/-- When the searches in the joined strings find no more and no less than the name. -/
structure Unambiguous (conf : Conf) (n : Text) : Prop where
  listed : conf.Listed (lower n) → n = lower n ∧ ∃ pre post,
    conf.entries = pre ++ [lower n] :: post ∧ ∀ es ∈ pre, ¬ Contains (lower n) es
  lookup : ¬ conf.Listed (lower n) → ∀ es ∈ conf.entries, endsFirst (lower n) es = false
  unlisted : ¬ conf.Listed (lower n) → n = lower n → ∀ pre es post,
    conf.entries = pre ++ es :: post → (∀ es' ∈ pre, ¬ Contains n es') → Contains n es →
      es.length ≠ 1

section Text

theorem not_mem_lower {s : Text} {x : Char} (hx : x.val.toNat < 97) (h : x ∉ s) : x ∉ lower s := by
  intro hm
  obtain ⟨c,hc,he⟩ := List.mem_map.mp hm
  rw [Lib.toLower_eq he hx] at hc
  exact h hc

theorem lower_joined {es : List Text} (h : ∀ e ∈ es, lower e = e) : lower (joined es) = joined es := by
  unfold joined
  induction es with
  | nil => rfl
  | cons e es ih =>
    have he := h e List.mem_cons_self
    have hs := ih (fun e' he' => h e' (List.mem_cons_of_mem _ he'))
    cases es with
    | nil => simpa using he
    | cons e' es =>
      rw [List.intercalate_cons_cons]
      unfold lower at he hs ⊢
      rw [List.map_append,List.map_append,he,hs]
      rfl

theorem split_joined {es : List Text} (hn : es ≠ []) (h : ∀ e ∈ es, IsName e) :
    splitString (joined es) ',' = es :=
  List.splitOn_intercalate ',' (fun e he => (h e he).comma) hn

theorem comma_joined {es : List Text} (hn : es ≠ []) (h : ∀ e ∈ es, IsName e) :
    ',' ∈ joined es ↔ es.length ≠ 1 := by
  cases es with
  | nil => exact absurd rfl hn
  | cons e es =>
    cases es with
    | nil => simpa [joined] using (h e List.mem_cons_self).comma
    | cons e' es => simp [joined]

end Text

theorem nb_char {pos l m : Nat} (h : pos + l ≤ m) : l = m - pos ↔ pos = m - l := by omega

theorem entryHas_single {d : Text} {e : Text} (he : ',' ∉ e) : entryHas d e = endsFirst d [e] := by
  simp only [entryHas,endsFirst]
  cases hf : find d e with
  | none => simp [find_eq_none.mp hf]
  | some pos =>
    have hi : d <:+: e := find_isSome.mp (by rw [hf]; rfl)
    have hb := find_bound hf
    simp only [findFrom_none he,if_pos hi,Option.some.injEq]
    exact decide_eq_decide.mpr (nb_char hb)

section Entry
variable {d : Text} (hd : d ≠ []) (hc : ',' ∉ d)
include hd hc

theorem entryHas_append {e : Text} (he : ',' ∉ e) (t : Text) :
    entryHas d (e ++ ',' :: t) =
      if d <:+: e then decide (find d e = some (e.length - d.length)) else entryHas d t := by
  unfold entryHas
  rw [find_append_sep hd hc]
  by_cases hi : d <:+: e
  · simp only [if_pos hi]
    cases hf : find d e with
    | none => exact absurd hi (find_eq_none.mp hf)
    | some pos =>
      have hb := find_bound hf
      simp only [findFrom_before he t (Nat.le_of_add_right_le hb),Option.some.injEq]
      exact decide_eq_decide.mpr (nb_char hb)
  · simp only [if_neg hi]
    cases hf : find d t with
    | none => rfl
    | some pos =>
      simp only [Option.map_some,findFrom_after]
      cases hg : findFrom ',' pos t with
      | none =>
        have hl : (e ++ ',' :: t).length = t.length + (e.length + 1) := by simp; omega
        simp only [Option.map_none,hl,Nat.add_sub_add_right]
      | some endPos =>
        simp only [Option.map_some,Nat.add_sub_add_right]

/-- The lookups see the first name that contains the text, and how it ends. -/
theorem entryHas_joined {es : List Text} (hn : es ≠ []) (h : ∀ e ∈ es, IsName e) :
    entryHas d (joined es) = endsFirst d es := by
  induction es with
  | nil => exact absurd rfl hn
  | cons e es ih =>
    have he := (h e List.mem_cons_self).comma
    cases es with
    | nil => simpa [joined] using entryHas_single he
    | cons e' es =>
      have hs := ih (List.cons_ne_nil _ _) (fun x hx => h x (List.mem_cons_of_mem _ hx))
      unfold joined at hs ⊢
      rw [List.intercalate_cons_cons,List.append_assoc,List.singleton_append,
        entryHas_append hd hc he,hs]
      rfl

theorem infix_joined (es : List Text) : d <:+: joined es ↔ Contains d es :=
  infix_intercalate hd hc es

end Entry

section Lists
variable {α : Type}

theorem findIdx?_congr {p q : α → Bool} {l : List α} (h : ∀ a ∈ l, p a = q a) :
    l.findIdx? p = l.findIdx? q := by
  induction l with
  | nil => rfl
  | cons a l ih =>
    rw [List.findIdx?_cons,List.findIdx?_cons,h a List.mem_cons_self,
      ih (fun b hb => h b (List.mem_cons_of_mem _ hb))]

theorem findIdx?_split {p : α → Bool} {pre post : List α} {a : α} (hp : ∀ b ∈ pre, p b = false)
    (ha : p a = true) : (pre ++ a :: post).findIdx? p = some pre.length := by
  rw [List.findIdx?_append,List.findIdx?_eq_none_iff.mpr hp,List.findIdx?_cons,if_pos ha]
  simp

theorem find?_split {p : α → Bool} {pre post : List α} {a : α} (hp : ∀ b ∈ pre, p b = false)
    (ha : p a = true) : (pre ++ a :: post).find? p = some a := by
  rw [List.find?_append,List.find?_eq_none.mpr (by simpa using hp)]
  simp [ha]

theorem first_split (p : α → Prop) [DecidablePred p] (l : List α) :
    (∀ a ∈ l, ¬ p a) ∨ ∃ pre a post, l = pre ++ a :: post ∧ (∀ b ∈ pre, ¬ p b) ∧ p a := by
  cases h : l.find? (fun a => decide (p a)) with
  | none => exact Or.inl (by simpa using h)
  | some a =>
    obtain ⟨ha,pre,post,hl,hpre⟩ := List.find?_eq_some_iff_append.mp h
    exact Or.inr ⟨pre,a,post,hl,by simpa using hpre,by simpa using ha⟩

end Lists

instance (d : Text) (es : List Text) : Decidable (Contains d es) := by
  unfold Contains
  infer_instance

section Names
variable {entries : List (List Text)} (hne : ∀ es ∈ entries, es ≠ [])
  (hname : ∀ es ∈ entries, ∀ e ∈ es, IsName e)
include hne hname

theorem joined_injective {others : List (List Text)} (hne' : ∀ es ∈ others, es ≠ [])
    (hname' : ∀ es ∈ others, ∀ e ∈ es, IsName e) (h : entries.map joined = others.map joined) :
    entries = others := by
  have hid : ∀ l : List (List Text), (∀ es ∈ l, es ≠ []) → (∀ es ∈ l, ∀ e ∈ es, IsName e) →
      (l.map joined).map (splitString · ',') = l := by
    intro l hn hm
    rw [List.map_map]
    conv_rhs => rw [← List.map_id l]
    exact List.map_congr_left (fun es hes => split_joined (hn es hes) (hm es hes))
  rw [← hid entries hne hname,h,hid others hne' hname']

omit hname in
theorem dropName_unlisted {d : Text} (h : ∀ es ∈ entries, d ∉ es) : dropName d entries = entries := by
  have hkeep : entries.map (fun es => es.filter (· ≠ d)) = entries := by
    conv_rhs => rw [← List.map_id entries]
    refine List.map_congr_left (fun es hes => List.filter_eq_self.mpr (fun e he => ?_))
    have : e ≠ d := fun hd => h es hes (hd ▸ he)
    simpa using this
  rw [dropName,hkeep]
  exact List.filter_eq_self.mpr (fun es hes => by simpa using hne es hes)

end Names

theorem dropName_append (d : Text) (l l' : List (List Text)) :
    dropName d (l ++ l') = dropName d l ++ dropName d l' := by
  simp [dropName]

theorem dropName_single (d : Text) (l : List (List Text)) : dropName d ([d] :: l) = dropName d l := by
  simp [dropName]

theorem mem_dropName {d : Text} {entries : List (List Text)} {e : Text} :
    e ∈ (dropName d entries).flatten ↔ e ∈ entries.flatten ∧ e ≠ d := by
  simp only [dropName,List.mem_flatten,List.mem_filter,List.mem_map]
  constructor
  · rintro ⟨_,⟨⟨es,hes,rfl⟩,-⟩,he⟩
    obtain ⟨hm,hd⟩ := List.mem_filter.mp he
    exact ⟨⟨es,hes,hm⟩,by simpa using hd⟩
  · rintro ⟨⟨es,hes,hm⟩,hd⟩
    have he : e ∈ es.filter (· ≠ d) := List.mem_filter.mpr ⟨hm,by simpa using hd⟩
    exact ⟨_,⟨⟨es,hes,rfl⟩,by simpa using List.ne_nil_of_mem he⟩,he⟩

theorem dropName_ne (d : Text) (entries : List (List Text)) : ∀ es ∈ dropName d entries, es ≠ [] := by
  intro es hes
  simpa using (List.mem_filter.mp hes).2

theorem dropName_name {d : Text} {entries : List (List Text)}
    (h : ∀ es ∈ entries, ∀ e ∈ es, IsName e) : ∀ es ∈ dropName d entries, ∀ e ∈ es, IsName e := by
  intro es hes e he
  obtain ⟨es',hes',hm⟩ := List.mem_flatten.mp
    (mem_dropName.mp (List.mem_flatten.mpr ⟨es,hes,he⟩)).1
  exact h es' hes' e hm

theorem upd_skip {n tmp : Text} (h : ¬ n <:+: tmp) (rest : List Text) :
    (updPollingProp n (tmp :: rest)).1 = tmp :: (updPollingProp n rest).1 := by
  rw [updPollingProp,if_neg h]

section Upd
variable {n : Text} (hn : n ≠ []) (hc : ',' ∉ n)
include hn hc

theorem upd_untouched {l : List (List Text)} (h : ∀ es ∈ l, ¬ Contains n es) :
    (updPollingProp n (l.map joined)).1 = l.map joined := by
  induction l with
  | nil => rfl
  | cons es l ih =>
    have hes : ¬ n <:+: joined es := by
      rw [infix_joined hn hc]
      exact h es List.mem_cons_self
    rw [List.map_cons,upd_skip hes,ih (fun es' he => h es' (List.mem_cons_of_mem _ he))]

/-- Only the first entry that contains the text is looked at, and it goes when it is one name. -/
theorem upd_first {pre post : List (List Text)} {es : List Text} (hpre : ∀ es' ∈ pre, ¬ Contains n es')
    (hes : Contains n es) (hne : es ≠ []) (hname : ∀ e ∈ es, IsName e) :
    (updPollingProp n ((pre ++ es :: post).map joined)).1 =
      (if es.length = 1 then pre ++ post else pre ++ es :: post).map joined := by
  induction pre with
  | nil =>
    have hi : n <:+: joined es := (infix_joined hn hc es).mpr hes
    rw [List.nil_append,List.map_cons,updPollingProp,if_pos hi]
    by_cases hl : es.length = 1
    · rw [if_neg (fun hm => (comma_joined hne hname).mp hm hl),if_pos hl]
      rfl
    · rw [if_pos ((comma_joined hne hname).mpr hl),if_neg hl]
      rfl
  | cons es' pre ih =>
    have hes' : ¬ n <:+: joined es' := by
      rw [infix_joined hn hc]
      exact hpre es' List.mem_cons_self
    rw [List.cons_append,List.map_cons,upd_skip hes',ih (fun x hx => hpre x (List.mem_cons_of_mem _ hx))]
    split <;> rfl

end Upd

/-- A name with a letter in upper case stands in no list. -/
theorem not_contains_of_upper {n : Text} (h : n ≠ lower n) {es : List Text}
    (hname : ∀ e ∈ es, IsName e) : ¬ Contains n es := by
  rintro ⟨e,he,hi⟩
  apply h
  have hlow := (hname e he).lower
  obtain ⟨s,t,rfl⟩ := hi
  unfold lower at hlow ⊢
  rw [List.map_append,List.map_append] at hlow
  have h1 := (List.append_inj hlow (by simp)).1
  exact ((List.append_inj h1 (by simp)).2).symm

section Conf
variable {conf : Conf} {n : Text}

theorem listed_iff {d : Text} : conf.Listed d ↔ d ∈ conf.entries.flatten := by
  rw [List.mem_flatten]
  exact Iff.rfl

theorem not_listed_iff {d : Text} : ¬ conf.Listed d ↔ ∀ es ∈ conf.entries, d ∉ es := by
  simp [Conf.Listed]

/-- An update that leaves the lists alone is right for a device that is in none of them. -/
theorem untouched_iff (d : Text) :
    conf.text = (dropName d conf.entries).map joined ↔ ¬ conf.Listed d := by
  constructor
  · intro h hl
    have he : conf.entries = dropName d conf.entries :=
      joined_injective conf.ne conf.name (dropName_ne d _) (dropName_name conf.name) h
    rw [listed_iff,he] at hl
    exact (mem_dropName.mp hl).2 rfl
  · intro h
    rw [dropName_unlisted conf.ne (not_listed_iff.mp h)]
    rfl

/-- Dropping a list of one name is right when the name is the device's. -/
theorem erased_iff {d e : Text} {pre post : List (List Text)}
    (hs : conf.entries = pre ++ [e] :: post) :
    (pre ++ post).map joined = (dropName d conf.entries).map joined ↔ e = d := by
  have hnd := conf.nodup
  rw [hs,List.flatten_append,List.flatten_cons] at hnd
  have hsub : ∀ es ∈ pre ++ post, es ∈ conf.entries := by
    intro es hes
    rw [hs]
    simp only [List.mem_append,List.mem_cons] at hes ⊢
    exact hes.imp_right Or.inr
  constructor
  · intro h
    by_contra hd
    have he := joined_injective (fun es hes => conf.ne es (hsub es hes))
      (fun es hes => conf.name es (hsub es hes)) (dropName_ne d _) (dropName_name conf.name) h
    have hm : e ∈ (dropName d conf.entries).flatten :=
      mem_dropName.mpr ⟨by rw [hs]; simp,hd⟩
    rw [← he,List.flatten_append,List.mem_append] at hm
    simp only [List.singleton_append,List.nodup_append,List.nodup_cons] at hnd
    rcases hm with hm | hm
    · exact hnd.2.2 e hm e List.mem_cons_self rfl
    · exact hnd.2.1.1 hm
  · rintro rfl
    have hno : ∀ es ∈ pre ++ post, e ∉ es := by
      intro es hes he
      simp only [List.singleton_append,List.nodup_append,List.nodup_cons] at hnd
      rcases List.mem_append.mp hes with hp | hp
      · exact hnd.2.2 e (List.mem_flatten.mpr ⟨es,hp,he⟩) e List.mem_cons_self rfl
      · exact hnd.2.1.1 (List.mem_flatten.mpr ⟨es,hp,he⟩)
    rw [hs,dropName_append,dropName_single,← dropName_append,
      dropName_unlisted (fun es hes => conf.ne es (hsub es hes)) hno]

theorem Conf.name_of_split {pre post : List (List Text)} {es : List Text}
    (hs : conf.entries = pre ++ es :: post) : es ≠ [] ∧ ∀ e ∈ es, IsName e := by
  have hm : es ∈ conf.entries := by
    rw [hs]
    simp
  exact ⟨conf.ne es hm,conf.name es hm⟩

theorem dev_entry_text {d : Text} (hd : d ≠ []) (hc : ',' ∉ d) :
    getDevEntryInPoolConf conf.text d = conf.entries.findIdx? (endsFirst d) := by
  rw [getDevEntryInPoolConf,Conf.text,List.findIdx?_map]
  exact findIdx?_congr (fun es hes => entryHas_joined hd hc (conf.ne es hes) (conf.name es hes))

theorem polled_devs_text {d : Text} (hd : d ≠ []) (hc : ',' ∉ d) :
    (getThPolledDevs conf.text d).2 =
      ((conf.entries.findIdx? (endsFirst d)).map (fun i => conf.entries.getD i [])).getD [] := by
  have hlow : ∀ es ∈ conf.entries, lower (joined es) = joined es := fun es hes =>
    lower_joined (fun e he => (conf.name es hes e he).lower)
  have hidx : conf.text.findIdx? (fun tmp => entryHas d (lower tmp)) =
      conf.entries.findIdx? (endsFirst d) := by
    rw [← dev_entry_text hd hc,getDevEntryInPoolConf]
    refine findIdx?_congr (fun tmp ht => ?_)
    obtain ⟨es,hes,rfl⟩ := List.mem_map.mp ht
    rw [hlow es hes]
  rw [getThPolledDevs,hidx]
  cases hf : conf.entries.findIdx? (endsFirst d) with
  | none => rfl
  | some i =>
    obtain ⟨hi,-,-⟩ := List.findIdx?_eq_some_iff_getElem.mp hf
    have hm : conf.entries[i] ∈ conf.entries := List.getElem_mem hi
    have hget : conf.text.getD i [] = joined conf.entries[i] := by
      simp [Conf.text,List.getD,hi]
    simp only [Option.map_some,Option.getD_some,hget,hlow _ hm,
      split_joined (conf.ne _ hm) (conf.name _ hm)]
    simp [List.getD,hi]

theorem endsFirst_of_not_contains {d : Text} {es : List Text} (h : ¬ Contains d es) :
    endsFirst d es = false := by
  induction es with
  | nil => rfl
  | cons e es ih =>
    have he : ¬ d <:+: e := fun hi => h ⟨e,List.mem_cons_self,hi⟩
    rw [endsFirst,if_neg he]
    exact ih (fun ⟨x,hx,hi⟩ => h ⟨x,List.mem_cons_of_mem _ hx,hi⟩)

theorem endsFirst_single (d : Text) : endsFirst d [d] = true := by
  simp [endsFirst,find_self]

/-- A device alone in its entry, with no name before that contains its own. -/
theorem whole_of_alone {d : Text} (hn : IsName d) {pre post : List (List Text)}
    (hs : conf.entries = pre ++ [d] :: post) (hpre : ∀ es ∈ pre, ¬ Contains d es) :
    WholeNames conf d := by
  have hl : lower d = d := hn.lower
  have hfirst : ∀ es ∈ pre, endsFirst d es = false := fun es hes =>
    endsFirst_of_not_contains (hpre es hes)
  have hnot : ∀ es ∈ pre, decide (d ∈ es) = false := by
    intro es hes
    rw [decide_eq_false_iff_not]
    exact fun hd => hpre es hes ⟨d,hd,List.infix_rfl⟩
  have hentry : getDevEntryInPoolConf conf.text d = some pre.length := by
    rw [dev_entry_text hn.ne hn.comma,hs]
    exact findIdx?_split hfirst (endsFirst_single d)
  refine ⟨?_,?_,?_,?_⟩
  · rw [hl,hentry,hs]
    exact (findIdx?_split hnot (by simp)).symm
  · rw [hl,polled_devs_text hn.ne hn.comma,hs,findIdx?_split hfirst (endsFirst_single d),
      find?_split hnot (by simp)]
    simp [List.getD]
  · have htext : conf.text = pre.map joined ++ d :: post.map joined := by
      simp [Conf.text,hs,joined]
    have hrem : remObjPolling conf.text d = .ok ((pre ++ post).map joined,true) := by
      have hget : conf.text.getD pre.length [] = d := by
        simp [htext,List.getD]
      simp only [remObjPolling,hl,hentry,hget,if_neg hn.comma]
      rw [htext,List.map_append]
      simp [List.eraseIdx_append_of_length_le]
    rw [hrem,hl]
    exact (erased_iff hs).mpr rfl
  · rw [Conf.text,hs,upd_first hn.ne hn.comma hpre ⟨d,List.mem_cons_self,List.infix_rfl⟩
      (List.cons_ne_nil _ _) (conf.name_of_split hs).2,← hs,hl]
    exact (erased_iff hs).mpr rfl

/-- A device in no list, whose name the searches do not take for another. -/
theorem whole_of_unlisted (hn : n ≠ []) (hc : ',' ∉ n) (hu : ¬ conf.Listed (lower n))
    (h : Unambiguous conf n) : WholeNames conf n := by
  have hd : lower n ≠ [] := by simpa [lower] using hn
  have hdc := not_mem_lower (by decide) hc
  have hnone : conf.entries.findIdx? (endsFirst (lower n)) = none :=
    List.findIdx?_eq_none_iff.mpr (h.lookup hu)
  have hno := not_listed_iff.mp hu
  refine ⟨?_,?_,?_,?_⟩
  · rw [dev_entry_text hd hdc,hnone]
    exact (List.findIdx?_eq_none_iff.mpr (fun es hes => by simpa using hno es hes)).symm
  · rw [polled_devs_text hd hdc,hnone,List.find?_eq_none.mpr (fun es hes => by simpa using hno es hes)]
    rfl
  · rw [remObjPolling,dev_entry_text hd hdc,hnone]
    exact (untouched_iff _).mpr hu
  · have hsame : (updPollingProp n conf.text).1 = conf.text := by
      rcases first_split (Contains n) conf.entries with hall | ⟨pre,es,post,hs,hpre,hes⟩
      · exact upd_untouched hn hc hall
      · by_cases hlow : n = lower n
        · have hlen := h.unlisted hu hlow pre es post hs hpre hes
          obtain ⟨hne,hname⟩ := conf.name_of_split hs
          rw [Conf.text,hs,upd_first hn hc hpre hes hne hname,if_neg hlen]
        · exact absurd hes (not_contains_of_upper hlow (conf.name_of_split hs).2)
    rw [hsame]
    exact (untouched_iff _).mpr hu

theorem unambiguous_of_whole (hn : n ≠ []) (hc : ',' ∉ n) (h : WholeNames conf n) :
    Unambiguous conf n := by
  have hd : lower n ≠ [] := by simpa [lower] using hn
  have hdc := not_mem_lower (by decide) hc
  -- what the update does to the lists decides where the name may stand
  have hupd : ∀ pre es post, conf.entries = pre ++ es :: post → (∀ es' ∈ pre, ¬ Contains n es') →
      Contains n es → (es.length ≠ 1 ∧ ¬ conf.Listed (lower n)) ∨ es = [lower n] := by
    intro pre es post hs hpre hes
    obtain ⟨hne,hname⟩ := conf.name_of_split hs
    have hu := h.upd
    rw [Conf.text,hs,upd_first hn hc hpre hes hne hname,← hs] at hu
    by_cases hl : es.length = 1
    · obtain ⟨e,rfl⟩ := List.length_eq_one_iff.mp hl
      rw [if_pos hl] at hu
      exact Or.inr (by rw [(erased_iff hs).mp hu])
    · rw [if_neg hl] at hu
      exact Or.inl ⟨hl,(untouched_iff _).mp hu⟩
  refine ⟨?_,?_,?_⟩
  · intro hl
    rcases first_split (Contains n) conf.entries with hall | ⟨pre,es,post,hs,hpre,hes⟩
    · have hu := h.upd
      rw [Conf.text,upd_untouched hn hc hall] at hu
      exact absurd hl ((untouched_iff _).mp hu)
    · have hlow : n = lower n := by
        by_contra hup
        exact not_contains_of_upper hup (conf.name_of_split hs).2 hes
      rcases hupd pre es post hs hpre hes with ⟨-,hu⟩ | rfl
      · exact absurd hl hu
      · exact ⟨hlow,pre,post,hs,by rwa [← hlow]⟩
  · intro hu es hes
    have he := h.entry
    have hnone : conf.entries.findIdx? (fun es => lower n ∈ es) = none :=
      List.findIdx?_eq_none_iff.mpr (fun es hes => by simpa using not_listed_iff.mp hu es hes)
    rw [dev_entry_text hd hdc,hnone] at he
    exact List.findIdx?_eq_none_iff.mp he es hes
  · intro hu hlow pre es post hs hpre hes
    rcases hupd pre es post hs hpre hes with ⟨hl,-⟩ | rfl
    · exact hl
    · exact absurd ⟨[lower n],by rw [hs]; simp,List.mem_cons_self⟩ hu

end Conf

/-- The pool configuration is read and changed name by name exactly for the names the searches
in the joined strings tell apart. -/
theorem pool_conf_whole_names (conf : Conf) (n : Text) (hn : n ≠ []) (hc : ',' ∉ n) :
    WholeNames conf n ↔ Unambiguous conf n := by
  constructor
  · exact unambiguous_of_whole hn hc
  · intro h
    by_cases hl : conf.Listed (lower n)
    · obtain ⟨hlow,pre,post,hs,hpre⟩ := h.listed hl
      rw [← hlow] at hs hpre
      exact whole_of_alone ⟨hn,hc,hlow.symm⟩ hs hpre
    · exact whole_of_unlisted hn hc hl h

def separateConf : Conf where
  entries := [["sys/tg/1".toList],["sys/tg/11".toList,"sys/tg/2".toList]]
  ne := by decide
  name := by decide
  nodup := by decide

/-- A device alone in the first entry is told from one whose name only starts like its own. -/
theorem separate_whole : WholeNames separateConf "sys/tg/1".toList :=
  (pool_conf_whole_names separateConf "sys/tg/1".toList (by decide) (by decide)).mpr
    ⟨fun _ => ⟨by decide,[],[["sys/tg/11".toList,"sys/tg/2".toList]],rfl,by simp⟩,
      fun h => absurd (by decide) h,fun h => absurd (by decide) h⟩

def sharedConf : Conf where
  entries := [["sys/tg/11".toList,"sys/tg/1".toList]]
  ne := by decide
  name := by decide
  nodup := by decide

/-- Behind a name it is the beginning of, a device is not found in its own entry. -/
theorem shared_not_whole :
    sharedConf.Listed "sys/tg/1".toList ∧ ¬ WholeNames sharedConf "sys/tg/1".toList := by
  refine ⟨by decide,fun h => ?_⟩
  have he := h.entry
  revert he
  decide

end CppTango.Polling.PoolConf
