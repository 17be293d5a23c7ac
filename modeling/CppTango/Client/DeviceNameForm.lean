import CppTango.Client.DeviceName

namespace CppTango.Client.Names
open CppTango.Lib

section Cuts
variable {s e t : Text} {c : Char}

theorem substr_front (e t : Text) : substr (e ++ t) 0 (some e.length) = .ok e := by
  unfold substr
  rw [if_neg (Nat.not_lt_zero _),List.drop_zero,Option.getD_some,List.take_left]

theorem substr_behind (e t : Text) : substr (e ++ t) e.length none = .ok t := by
  unfold substr
  rw [if_neg (by rw [List.length_append]; omega),List.drop_left,Option.getD_none,
    List.take_of_length_le (by rw [List.length_append]; omega)]

/-- The text behind a separator. -/
theorem substr_after (e : Text) (c : Char) (t : Text) : substr (e ++ c :: t) (e.length + 1) none = .ok t := by
  have h := substr_behind (e ++ [c]) t
  rwa [List.length_append,List.length_singleton,List.append_assoc] at h

theorem findFrom_tail (a t : Text) : findFrom '/' (a.length + 1) (a ++ '/' :: t) =
    (t.idxOf? '/').map (· + (a.length + 1)) := by
  have h := findFrom_after '/' 0 a t
  rw [Nat.zero_add] at h
  rw [h]
  congr 1
  unfold findFrom
  rw [List.drop_zero]
  cases t.idxOf? '/' <;> rfl

theorem findFrom_third (a b m : Text) :
    findFrom '/' (b.length + (a.length + 1) + 1) (a ++ '/' :: (b ++ '/' :: m)) =
      (m.idxOf? '/').map (· + (b.length + (a.length + 1) + 1)) := by
  have h := findFrom_tail (a ++ '/' :: b) m
  simp only [List.length_append,List.length_cons,List.append_assoc,List.cons_append] at h
  have hpos : b.length + (a.length + 1) + 1 = a.length + (b.length + 1) + 1 := by omega
  rw [hpos]
  exact h

/-- The fields behind the first separator. -/
theorem checkFields_cases (wrong : NameFault) (a t : Text) :
    checkFields wrong (a ++ '/' :: t) a.length = .error wrong ∨
      checkFields wrong (a ++ '/' :: t) a.length = .ok () ∧
        ∃ b m, b ≠ [] ∧ '/' ∉ b ∧ '/' ∉ m ∧ t = b ++ '/' :: m := by
  unfold checkFields
  rw [findFrom_tail]
  cases hi : t.idxOf? '/' with
  | none => exact .inl rfl
  | some i =>
    obtain ⟨b,m,hb,rfl,rfl⟩ := idxOf?_cut hi
    rw [Option.map_some]
    dsimp only
    by_cases hnil : b = []
    · rw [hnil]
      exact .inl (if_pos (Nat.zero_add _))
    · have hlen := List.length_pos_of_ne_nil hnil
      rw [if_neg (by omega)]
      rw [findFrom_third]
      cases hm : m.idxOf? '/' with
      | none => exact .inr ⟨rfl,b,m,hnil,hb,not_mem_of_idxOf? hm,rfl⟩
      | some k => exact .inl rfl

theorem checkFields_ok {wrong : NameFault} {a b m : Text} (hb : b ≠ []) (hs : '/' ∉ b) (hm : '/' ∉ m) :
    checkFields wrong (a ++ '/' :: (b ++ '/' :: m)) a.length = .ok () := by
  unfold checkFields
  have hlen := List.length_pos_of_ne_nil hb
  rw [findFrom_tail,idxOf?_append_sep hs,Option.map_some]
  dsimp only
  rw [if_neg (by omega),findFrom_third,List.idxOf?_eq_none_iff.mpr hm,Option.map_none]

theorem checkAlias_ok {fullName : Text} (hc : ':' ∉ s) (hr : ¬ resSep <:+: s) : checkAlias fullName s = .ok () := by
  unfold checkAlias
  rw [List.idxOf?_eq_none_iff.mpr hc,find_eq_none.mpr hr]

/-- An alias is refused with a text, or has no text in it that it must not have. -/
theorem checkAlias_cases (fullName : Text) (s : Text) : (∃ e, checkAlias fullName s = .error (.wrongName e)) ∨
    checkAlias fullName s = .ok () ∧ ':' ∉ s ∧ ¬ resSep <:+: s := by
  unfold checkAlias
  cases hc : s.idxOf? ':' with
  | some i => exact .inl ⟨_,rfl⟩
  | none =>
    cases hr : find resSep s with
    | some i => exact .inl ⟨_,rfl⟩
    | none => exact .inr ⟨rfl,not_mem_of_idxOf? hc,find_eq_none.mp hr⟩

end Cuts

structure Address where
  host : Text
  port : Text
deriving DecidableEq, Repr

/-- What a name names. -/
inductive Named
  | device (domain family member : Text)
  | devAlias (name : Text)
deriving DecidableEq, Repr

def Address.text (a : Address) : Text := a.host ++ ':' :: a.port

namespace Named

def text : Named → Text
  | .device a b m => a ++ '/' :: (b ++ '/' :: m)
  | .devAlias x => x

def isAlias : Named → Bool
  | .device _ _ _ => false
  | .devAlias _ => true

/-- The separators are where they belong, and there is a family. -/
def Loose : Named → Prop
  | .device a b m => '/' ∉ a ∧ '/' ∉ b ∧ '/' ∉ m ∧ b ≠ []
  | .devAlias x => '/' ∉ x ∧ ':' ∉ x ∧ ¬ resSep <:+: x

end Named

/-- An address, or none, and what is named there. -/
structure Parts where
  address : Option Address
  named : Named
deriving DecidableEq, Repr

namespace Parts

def text (p : Parts) : Text :=
  match p.address with
  | none => p.named.text
  | some a => a.text ++ '/' :: p.named.text

/-- What the parser takes: the separators are where it looks for them, and without an address there is a domain. -/
def Loose (p : Parts) (dbase : Bool) : Prop :=
  p.named.Loose ∧ (dbase = false → p.named.isAlias = false) ∧
    match p.address with
    | none => dbase = true ∧ ∀ a b m, p.named = .device a b m → a ≠ [] ∧ ':' ∉ a
    | some a => '/' ∉ a.host ∧ ':' ∉ a.host ∧ '/' ∉ a.port

end Parts

section Stores
variable (d : DeviceProxy)

def DeviceProxy.named (x : Named) : DeviceProxy :=
  match x with
  | .device _ _ _ => { d with deviceName := x.text }
  | .devAlias n => { d with aliasName := n, deviceName := n, isAlias := true }

/-- What is stored for the parts of a name. -/
def Parts.stored (getFqdn : Text → Text) (p : Parts) : DeviceProxy :=
  match p.address with
  | none => { d.named p.named with fromEnvVar := true, portNum := 0, host := fromIor, port := fromIor }
  | some a =>
    if d.dbaseUsed = true then
      { (d.dbHosted getFqdn a.host a.port).named p.named with
        fromEnvVar := false, portNum := 0, host := fromIor, port := fromIor }
    else
      { d.named p.named with
        host := a.host, port := a.port, portNum := streamInt a.port, dbHost := notUsed, dbPort := notUsed,
        dbPortNum := 0, fromEnvVar := false }

end Stores

section Parsers
variable {fullName : Text} {d d' : DeviceProxy} {getFqdn : Text → Text}

theorem wrongDevice_eq (fullName : Text) : ∃ e, wrongDevice fullName = .wrongName e := ⟨_,rfl⟩

theorem parseObject_named {x : Named} (hx : x.Loose) : parseObject fullName d x.text = .ok (d.named x) := by
  unfold parseObject
  cases x with
  | device a b m =>
    obtain ⟨ha,hb,hm,hne⟩ := hx
    rw [Named.text,idxOf?_append_sep ha]
    dsimp only
    rw [checkFields_ok hne hb hm]
    rfl
  | devAlias n =>
    obtain ⟨hs,hc,hr⟩ := hx
    rw [Named.text,List.idxOf?_eq_none_iff.mpr hs]
    dsimp only
    rw [checkAlias_ok hc hr]
    rfl

theorem parseObject_cases (fullName : Text) (d : DeviceProxy) (t : Text) :
    (∃ e, parseObject fullName d t = .error (.wrongName e)) ∨ ∃ x : Named, x.Loose ∧ t = x.text := by
  cases hi : t.idxOf? '/' with
  | none =>
    rcases checkAlias_cases fullName t with ⟨e,he⟩ | ⟨-,hc,hr⟩
    · refine .inl ⟨e,?_⟩
      unfold parseObject
      rw [hi]
      dsimp only
      rw [he]
      rfl
    · exact .inr ⟨.devAlias t,⟨not_mem_of_idxOf? hi,hc,hr⟩,rfl⟩
  | some i =>
    obtain ⟨a,t,ha,rfl,rfl⟩ := idxOf?_cut hi
    rcases checkFields_cases (wrongDevice fullName) a t with he | ⟨-,b,m,hne,hb,hm,rfl⟩
    · obtain ⟨e,hw⟩ := wrongDevice_eq fullName
      refine .inl ⟨e,?_⟩
      unfold parseObject
      rw [hi]
      dsimp only
      rw [he,hw]
      rfl
    · exact .inr ⟨.device a b m,⟨ha,hb,hm,hne⟩,rfl⟩

/-- Behind an address of the database. -/
theorem parseDbHost_eq (a : Address) (t : Text) :
    parseDbHost fullName d getFqdn (a.text ++ '/' :: t) a.text a.text.length a.host.length =
      (parseObject fullName (d.dbHosted getFqdn a.host a.port) t).map fun d =>
        { d with fromEnvVar := false, portNum := 0, port := fromIor, host := fromIor } := by
  unfold parseDbHost
  rw [substr_after,Address.text,substr_front,substr_after]
  rfl

theorem Address.cut {a : Address} (hh : '/' ∉ a.host) (hp : '/' ∉ a.port) (t : Text) :
    (a.text ++ '/' :: t).idxOf? '/' = some a.text.length := by
  refine idxOf?_append_sep ?_ t
  rw [Address.text,List.mem_append,List.mem_cons]
  rintro (h | h | h)
  · exact hh h
  · cases h
  · exact hp h

theorem parseDbase_stored {p : Parts} (hp : p.Loose true) (hd : d.dbaseUsed = true) :
    parseDbase fullName d getFqdn p.text = .ok (p.stored d getFqdn) := by
  obtain ⟨address,x⟩ := p
  obtain ⟨hx,-,ha⟩ := hp
  unfold parseDbase Parts.stored
  dsimp only at hx ha ⊢
  cases address with
  | none =>
    obtain ⟨-,hplain⟩ := ha
    dsimp only [Parts.text]
    cases x with
    | device a b m =>
      obtain ⟨hne,hc⟩ := hplain a b m rfl
      obtain ⟨has,hb,hm,hbne⟩ := hx
      rw [Named.text,idxOf?_append_sep has]
      dsimp only
      rw [substr_front,ok_bind,List.idxOf?_eq_none_iff.mpr hc]
      dsimp only
      rw [if_neg (by rw [List.length_eq_zero_iff]; exact hne),checkFields_ok hbne hb hm]
      rfl
    | devAlias n =>
      obtain ⟨hs,hc,hr⟩ := hx
      rw [Named.text,List.idxOf?_eq_none_iff.mpr hs]
      dsimp only
      rw [checkAlias_ok hc hr]
      rfl
  | some a =>
    obtain ⟨hh,hc,hp⟩ := ha
    dsimp only [Parts.text]
    rw [Address.cut hh hp]
    dsimp only
    rw [substr_front,ok_bind,Address.text,idxOf?_append_sep hc,← Address.text]
    dsimp only
    rw [parseDbHost_eq,parseObject_named hx,if_pos hd]
    rfl

theorem parseDbase_cases (fullName : Text) (d : DeviceProxy) (getFqdn : Text → Text) (body : Text) :
    (∃ e, parseDbase fullName d getFqdn body = .error (.wrongName e)) ∨ ∃ p : Parts, p.Loose true ∧ body = p.text := by
  cases hi : body.idxOf? '/' with
  | none =>
    rcases checkAlias_cases fullName body with ⟨e,he⟩ | ⟨-,hc,hr⟩
    · refine .inl ⟨e,?_⟩
      unfold parseDbase
      rw [hi]
      dsimp only
      rw [he]
      rfl
    · exact .inr ⟨⟨none,.devAlias body⟩,⟨⟨not_mem_of_idxOf? hi,hc,hr⟩,nofun,rfl,nofun⟩,rfl⟩
  | some i =>
    obtain ⟨f,t,hf,rfl,rfl⟩ := idxOf?_cut hi
    obtain ⟨e,hw⟩ := wrongDevice_eq fullName
    cases hc : f.idxOf? ':' with
    | none =>
      have hstep : parseDbase fullName d getFqdn (f ++ '/' :: t) =
          if f.length = 0 then .error (wrongDevice fullName)
          else
            (checkFields (wrongDevice fullName) (f ++ '/' :: t) f.length).map fun _ =>
              { d with
                deviceName := f ++ '/' :: t, fromEnvVar := true, portNum := 0, port := fromIor, host := fromIor } := by
        unfold parseDbase
        rw [hi]
        dsimp only
        rw [substr_front,ok_bind,hc]
        rfl
      rw [hstep]
      by_cases hnil : f = []
      · exact .inl ⟨e,by rw [if_pos (by rw [hnil]; rfl),hw]⟩
      · rw [if_neg (by rw [List.length_eq_zero_iff]; exact hnil)]
        rcases checkFields_cases (wrongDevice fullName) f t with he | ⟨-,b,m,hne,hb,hm,rfl⟩
        · exact .inl ⟨e,by rw [he,hw]; rfl⟩
        · refine .inr ⟨⟨none,.device f b m⟩,⟨⟨hf,hb,hm,hne⟩,nofun,rfl,?_⟩,rfl⟩
          rintro _ _ _ ⟨⟩
          exact ⟨hnil,not_mem_of_idxOf? hc⟩
    | some tmp =>
      have hstep : parseDbase fullName d getFqdn (f ++ '/' :: t) =
          parseDbHost fullName d getFqdn (f ++ '/' :: t) f f.length tmp := by
        unfold parseDbase
        rw [hi]
        dsimp only
        rw [substr_front,ok_bind,hc]
      rw [hstep]
      obtain ⟨h,q,hh,rfl,rfl⟩ := idxOf?_cut hc
      have haddr : h ++ ':' :: q = (Address.mk h q).text := rfl
      have hlen : h.length = (Address.mk h q).host.length := rfl
      rw [haddr,hlen,parseDbHost_eq]
      rcases parseObject_cases fullName (d.dbHosted getFqdn h q) t with ⟨e,he⟩ | ⟨x,hx,rfl⟩
      · exact .inl ⟨e,by dsimp only; rw [he]; rfl⟩
      · refine .inr ⟨⟨some ⟨h,q⟩,x⟩,⟨hx,nofun,?_,hh,?_⟩,rfl⟩
        · exact fun hm => hf (List.mem_append_left _ hm)
        · exact fun hm => hf (List.mem_append_right _ (List.mem_cons_of_mem _ hm))

/-- The first colon stands behind the first slash. -/
structure LateColon (body : Text) (front domain family member : Text) : Prop where
  clear : '/' ∉ front ∧ ':' ∉ front
  loose : (Named.device domain family member).Loose
  colon : ':' ∈ (Named.device domain family member).text
  text : body = front ++ '/' :: (Named.device domain family member).text

theorem substr_port (a : Address) (t : Text) :
    substr (a.text ++ '/' :: t) (a.host.length + 1) (countTo a.text.length (a.host.length + 1)) = .ok a.port := by
  have hlen : a.text.length = a.host.length + 1 + a.port.length := by
    rw [Address.text,List.length_append,List.length_cons]
    omega
  have hdrop : (a.text ++ '/' :: t).drop (a.host.length + 1) = a.port ++ '/' :: t := by
    have h := @List.drop_left _ (a.host ++ [':']) (a.port ++ '/' :: t)
    rwa [List.length_append,List.length_singleton,List.append_assoc,List.singleton_append,← List.cons_append,
      ← List.append_assoc] at h
  unfold substr countTo
  rw [if_neg (by rw [List.length_append,hlen]; omega),if_neg (by omega),hdrop,Option.getD_some,hlen,
    Nat.add_sub_cancel_left,List.take_left]

theorem parseNoDbase_stored {a : Address} {dom fam mem : Text} (hp : (Parts.mk (some a) (.device dom fam mem)).Loose false)
    (hd : d.dbaseUsed = false) :
    parseNoDbase fullName d (Parts.mk (some a) (.device dom fam mem)).text =
      .ok ((Parts.mk (some a) (.device dom fam mem)).stored d getFqdn) := by
  obtain ⟨⟨hdom,hfam,hmem,hne⟩,-,hh,hc,hport⟩ := hp
  have hcolon : (a.text ++ '/' :: (Named.device dom fam mem).text).idxOf? ':' = some a.host.length := by
    rw [Address.text,List.append_assoc]
    exact idxOf?_append_sep hc _
  have hhost : substr (a.text ++ '/' :: (Named.device dom fam mem).text) 0 (some a.host.length) = .ok a.host := by
    rw [Address.text,List.append_assoc]
    exact substr_front ..
  unfold parseNoDbase Parts.stored
  dsimp only [Parts.text]
  rw [hcolon]
  dsimp only
  rw [hhost,Address.cut hh hport]
  dsimp only
  rw [ok_bind,substr_port,ok_bind,substr_after,ok_bind,Named.text,idxOf?_append_sep hdom]
  dsimp only
  rw [checkFields_ok hne hfam hmem,if_neg (by rw [hd]; exact Bool.false_ne_true)]
  rfl

/-- The host is then what stands before the colon, with the slash in it. -/
theorem parseNoDbase_late {body f dom fam mem : Text} (h : LateColon body f dom fam mem) :
    ∃ d', parseNoDbase fullName d body = .ok d' ∧ '/' ∈ d'.host ∧ d'.dbaseUsed = d.dbaseUsed := by
  obtain ⟨⟨hf,hfc⟩,⟨hdom,hfam,hmem,hne⟩,hcolon,rfl⟩ := h
  obtain ⟨i,hi⟩ := Option.ne_none_iff_exists'.mp (fun hn => not_mem_of_idxOf? hn hcolon)
  obtain ⟨r,q,hr,hrq,rfl⟩ := idxOf?_cut hi
  have hbody : f ++ '/' :: (Named.device dom fam mem).text = (f ++ '/' :: r) ++ ':' :: q := by
    rw [hrq,List.append_assoc]
    rfl
  have hpos : (f ++ '/' :: (Named.device dom fam mem).text).idxOf? ':' = some (f ++ '/' :: r).length := by
    rw [hbody]
    refine idxOf?_append_sep ?_ q
    rw [List.mem_append,List.mem_cons]
    rintro (hm | hm | hm)
    · exact hfc hm
    · cases hm
    · exact hr hm
  have hhost : substr (f ++ '/' :: (Named.device dom fam mem).text) 0 (some (f ++ '/' :: r).length) =
      .ok (f ++ '/' :: r) := by
    rw [hbody]
    exact substr_front ..
  have hport : substr (f ++ '/' :: (Named.device dom fam mem).text) ((f ++ '/' :: r).length + 1)
      (countTo f.length ((f ++ '/' :: r).length + 1)) = .ok q := by
    have hcount : countTo f.length ((f ++ '/' :: r).length + 1) = none := by
      unfold countTo
      rw [List.length_append]
      exact if_pos (by omega)
    rw [hcount,hbody]
    exact substr_after ..
  refine ⟨{ d with
    host := f ++ '/' :: r, port := q, portNum := streamInt q, deviceName := (Named.device dom fam mem).text,
    dbHost := notUsed, dbPort := notUsed, dbPortNum := 0, fromEnvVar := false },?_,by simp,rfl⟩
  unfold parseNoDbase
  rw [hpos]
  dsimp only
  rw [hhost,idxOf?_append_sep hf,ok_bind]
  dsimp only
  rw [hport,ok_bind,substr_after,ok_bind,Named.text,idxOf?_append_sep hdom]
  dsimp only
  rw [checkFields_ok hne hfam hmem]
  rfl

theorem substr_within {s : Text} {pos : Nat} (n : Option Nat) (h : pos ≤ s.length) : ∃ t, substr s pos n = .ok t :=
  ⟨_,if_neg (by omega)⟩

theorem parseNoDbase_cases (fullName : Text) (d : DeviceProxy) (body : Text) :
    (∃ e, parseNoDbase fullName d body = .error (.wrongName e)) ∨
      (∃ a dom fam mem, (Parts.mk (some a) (.device dom fam mem)).Loose false ∧
        body = (Parts.mk (some a) (.device dom fam mem)).text) ∨
      ∃ f dom fam mem, LateColon body f dom fam mem := by
  cases hc : body.idxOf? ':' with
  | none => exact .inl ⟨_,by unfold parseNoDbase; rw [hc]; rfl⟩
  | some pos =>
    have hpos : pos + 1 ≤ body.length := by
      obtain ⟨e,t,-,rfl,rfl⟩ := idxOf?_cut hc
      rw [List.length_append,List.length_cons]
      omega
    obtain ⟨host,hhost⟩ := substr_within (some pos) (Nat.zero_le body.length)
    cases hi : body.idxOf? '/' with
    | none =>
      obtain ⟨e,he⟩ : ∃ e, wrongHost fullName = .wrongName e := ⟨_,rfl⟩
      refine .inl ⟨e,?_⟩
      unfold parseNoDbase
      rw [hc]
      dsimp only
      rw [hhost,hi,← he]
      rfl
    | some tmp =>
      obtain ⟨port,hport⟩ := substr_within (countTo tmp (pos + 1)) hpos
      obtain ⟨f,t,hf,rfl,rfl⟩ := idxOf?_cut hi
      obtain ⟨e,hwrong⟩ : ∃ e, wrongDeviceNoDb fullName = .wrongName e := ⟨_,rfl⟩
      cases ht : t.idxOf? '/' with
      | none =>
        refine .inl ⟨e,?_⟩
        unfold parseNoDbase
        rw [hc]
        dsimp only
        rw [hhost,hi,ok_bind]
        dsimp only
        rw [hport,ok_bind,substr_after,ok_bind,ht,← hwrong]
      | some sep =>
        have hstep : parseNoDbase fullName d (f ++ '/' :: t) =
            (checkFields (wrongDeviceNoDb fullName) t sep).map fun _ =>
              { d with
                host, port, portNum := streamInt port, deviceName := t, dbHost := notUsed, dbPort := notUsed,
                dbPortNum := 0, fromEnvVar := false } := by
          unfold parseNoDbase
          rw [hc]
          dsimp only
          rw [hhost,hi,ok_bind]
          dsimp only
          rw [hport,ok_bind,substr_after,ok_bind,ht]
          rfl
        rw [hstep]
        obtain ⟨dom,u,hdom,rfl,rfl⟩ := idxOf?_cut ht
        rcases checkFields_cases (wrongDeviceNoDb fullName) dom u with he | ⟨-,fam,mem,hne,hfam,hmem,rfl⟩
        · exact .inl ⟨e,by rw [he,hwrong]; rfl⟩
        · refine .inr ?_
          by_cases hfc : ':' ∈ f
          · obtain ⟨i,hfi⟩ := Option.ne_none_iff_exists'.mp (fun hn => not_mem_of_idxOf? hn hfc)
            obtain ⟨h,q,hh,rfl,-⟩ := idxOf?_cut hfi
            refine .inl ⟨⟨h,q⟩,dom,fam,mem,⟨⟨hdom,hfam,hmem,hne⟩,fun _ => rfl,?_,hh,?_⟩,rfl⟩
            · exact fun hm => hf (List.mem_append_left _ hm)
            · exact fun hm => hf (List.mem_append_right _ (List.mem_cons_of_mem _ hm))
          · refine .inr ⟨f,dom,fam,mem,⟨hf,hfc⟩,⟨hdom,hfam,hmem,hne⟩,?_,rfl⟩
            have hmem : ':' ∈ f ++ '/' :: (dom ++ '/' :: (fam ++ '/' :: mem)) := by
              obtain ⟨e,t,-,he,-⟩ := idxOf?_cut hc
              rw [he]
              simp
            rcases List.mem_append.mp hmem with hm | hm
            · exact absurd hm hfc
            · rcases List.mem_cons.mp hm with hm | hm
              · cases hm
              · exact hm

end Parsers
end CppTango.Client.Names
