import CppTango.Device.BlackBox

namespace CppTango.Device.BlackBox

open Lock

section Slot
variable {env : Env} {e x y : BlackBoxElt} {caller : Caller}

theorem cString_strcpy {s : String} (h : '\x00' ∉ s.toList) (buffer : List Char) :
    cString (strcpy s buffer) = s.toList := by
  unfold cString strcpy
  rw [List.takeWhile_append_of_pos (fun c hc => by simpa using fun he : c = '\x00' => h (he ▸ hc))]
  simp

/-- Up to the end of a copied text its own characters are read. -/
theorem charAt_strcpy {s : String} {i : Nat} (h : i ≤ s.length) (buffer : List Char) :
    charAt (strcpy s buffer) i = charAt (strcpy s []) i := by
  have hlen : i < (s.toList ++ ['\x00']).length := by
    rw [List.length_append,String.length_toList]
    exact Nat.lt_succ_of_le h
  have hown : ∀ b : List Char, (strcpy s b)[i]? = (s.toList ++ ['\x00'])[i]? := fun b => by
    unfold strcpy
    rw [List.append_cons,List.getElem?_append_left hlen]
  rw [charAt,charAt,hown,hown]

theorem requestedFrom_congr (h0 : charAt x.hostIpStr 0 = charAt y.hostIpStr 0)
    (h5 : charAt x.hostIpStr 5 = charAt y.hostIpStr 5) (hs : cString x.hostIpStr = cString y.hostIpStr)
    (hi : identText x = identText y) : requestedFrom env x = requestedFrom env y := by
  simp only [requestedFrom,h0,h5,hs,hi]

/-- What stands for the requests of a thread of the server. -/
def threadText : Bool → Bool → String
  | true,_ => "requested from polling"
  | false,true => "requested during device server process init sequence"
  | false,false => "requested from user thread"

/-- The text of the init sequence is too short to cover the character that tells an address of the same host. -/
theorem requestedFrom_thread {polling starting : Bool} {buffer : List Char}
    (hx : x.hostIpStr = strcpy (Caller.thread polling starting).host buffer)
    (hb : polling = false → starting = true → charAt buffer 5 ≠ 'u') :
    requestedFrom env x = threadText polling starting := by
  cases polling with
  | true =>
    have h0 : charAt x.hostIpStr 0 = 'p' := by rw [hx]; cases starting <;> rfl
    have h5 : charAt x.hostIpStr 5 = 'n' := by rw [hx]; cases starting <;> rfl
    simp [requestedFrom,h0,h5,threadText]
  | false =>
    cases starting with
    | true =>
      have h0 : charAt x.hostIpStr 0 = 'i' := by rw [hx]; rfl
      have h5 : charAt x.hostIpStr 5 ≠ 'u' := by
        have hdrop : charAt x.hostIpStr 5 = charAt buffer 5 := by
          rw [hx]
          change ((buffer.drop 5)[0]?).getD '\x00' = (buffer[5]?).getD '\x00'
          rw [List.getElem?_drop]
        exact hdrop ▸ hb rfl rfl
      simp [requestedFrom,h0,h5,threadText]
    | false =>
      have h0 : charAt x.hostIpStr 0 = 'u' := by rw [hx]; rfl
      have h5 : charAt x.hostIpStr 5 = 't' := by rw [hx]; rfl
      simp [requestedFrom,h0,h5,threadText]

theorem client_head (c : Client) (buffer : List Char) :
    charAt (strcpy c.addr.clientIp buffer) 0 = 'c' ∨ charAt (strcpy c.addr.clientIp buffer) 0 = 'g' := by
  obtain ⟨addr,known,-⟩ := c
  unfold charAt strcpy
  cases hl : addr.clientIp.toList with
  | nil => simp [hl] at known
  | cons a l =>
    rw [hl] at known
    rcases List.mem_pair.mp known with h | h
    · exact Or.inl (List.cons.inj h).1
    · exact Or.inr (List.cons.inj h).1

/-- The address of a client covers both characters the text looks at. -/
theorem requestedFrom_client {c : Client} {b b' : List Char} (hx : x.hostIpStr = strcpy c.addr.clientIp b)
    (hy : y.hostIpStr = strcpy c.addr.clientIp b') (hi : identText x = identText y) :
    requestedFrom env x = requestedFrom env y := by
  have hlen : 5 ≤ c.addr.clientIp.length := by
    have htake : (c.addr.clientIp.toList.take 5).length = 5 := by
      rcases List.mem_pair.mp c.known with h | h <;> rw [h] <;> rfl
    rw [List.length_take,String.length_toList] at htake
    omega
  refine requestedFrom_congr ?_ ?_ ?_ hi
  · rw [hx,hy,charAt_strcpy (Nat.zero_le _) b,charAt_strcpy (Nat.zero_le _) b']
  · rw [hx,hy,charAt_strcpy hlen b,charAt_strcpy hlen b']
  · rw [hx,hy,cString_strcpy c.text,cString_strcpy c.text]

end Slot

section Requests
variable {env : Env} {e e' x : BlackBoxElt} {caller : Caller} {clId : ClntIdent} {r : Request}

/-- The part of the text in front of the client. -/
def label (e : BlackBoxElt) : Int × ReqType × AttrType × OpType × String :=
  (e.time,e.reqType,e.attrType,e.opType,opText e)

theorem identify_cases (clId : ClntIdent) (caller : Caller) (e : BlackBoxElt) :
    identify clId caller e = e ∨ ∃ a, identify clId caller e = updateClientHost a e := by
  unfold identify
  split
  · exact Or.inl rfl
  · cases caller with
    | client c => exact Or.inr ⟨_,rfl⟩
    | thread _ _ => exact Or.inl rfl

@[simp] theorem identify_hostIpStr : (identify clId caller e).hostIpStr = e.hostIpStr := by
  rcases identify_cases clId caller e with h | ⟨a,h⟩
  · rw [h]
  · rw [h]
    rfl

@[simp] theorem identify_label : label (identify clId caller e) = label e := by
  rcases identify_cases clId caller e with h | ⟨a,h⟩
  · rw [h]
  · rw [h]
    rfl

/-- A client is identified by its own data, whatever stood in the slot. -/
theorem identify_client {c : Client} {buffer : List Char} (hx : x.hostIpStr = strcpy c.addr.clientIp buffer) :
    identify clId (.client c) x = updateClientHost (addClIdent clId c.addr) x := by
  have hthread : ofThread x = false := by
    rcases client_head c buffer with h | h <;> rw [ofThread,hx,h] <;> rfl
  rw [identify,hthread]
  rfl

theorem identText_identify {c : Client} {f : BlackBoxElt → BlackBoxElt}
    (hf : ∀ e, (f e).hostIpStr = strcpy c.addr.clientIp e.hostIpStr) :
    identText (identify clId (.client c) (f e)) = identText (identify clId (.client c) (f e')) := by
  rw [identify_client (hf e),identify_client (hf e')]
  rfl

theorem insert_hostIpStr : (r.insert e).hostIpStr = strcpy r.caller.host e.hostIpStr := by
  obtain ⟨call,time,caller⟩ := r
  cases call <;> simp [Request.insert,insertCmdClIdent,insertAttrClIdent,insertPipe] <;> rfl

/-- Only a read that names a version outside the switch keeps an old operation. -/
def Call.known : Call → Prop
  | .attr _ vers _ => 1 ≤ vers ∧ vers ≤ 4
  | _ => True

theorem opText_bare {op : OpType} (h : op.bare = true) (hx : x.opType = op) (he : e.opType = op) :
    opText x = opText e := by
  unfold opText
  rw [hx,he]
  cases op <;> first | rfl | cases h

theorem insert_label (hk : r.call.known) : label (r.insert e) = label (r.insert e') := by
  obtain ⟨call,time,caller⟩ := r
  cases call with
  | corbaAttr attr => rfl
  | cmd cmd vers sour =>
    simp only [Request.insert,insertCmdNl,getClientHost,label,opText]
    split_ifs <;> rfl
  | cmdClIdent cmd clId vers sour =>
    simp only [Request.insert,insertCmdClIdent,identify_label]
    simp only [insertCmdNl,getClientHost,label,opText]
    split_ifs <;> rfl
  | op op bare => exact congrArg (fun t => (time,ReqType.operation,AttrType.unknown,op,t)) (opText_bare bare rfl rfl)
  | opClIdent op bare clId =>
    simp only [Request.insert,Function.comp_apply,identify_label]
    exact congrArg (fun t => (time,ReqType.operation,AttrType.unknown,op,t)) (opText_bare bare rfl rfl)
  | attr names vers sour =>
    obtain ⟨h1,h4⟩ : 1 ≤ vers ∧ vers ≤ 4 := hk
    obtain rfl | rfl | rfl | rfl : vers = 1 ∨ vers = 2 ∨ vers = 3 ∨ vers = 4 := by omega
    · rfl
    · rfl
    · rfl
    · rfl
  | attrClIdent names clId vers sour =>
    simp only [Request.insert,insertAttrClIdent,identify_label]
    simp only [insertAttrNl5,getClientHost,label,opText]
    split_ifs <;> rfl
  | readPipe name clId =>
    simp only [Request.insert,insertPipe,identify_label]
    rfl
  | writePipe name clId vers =>
    simp only [Request.insert,insertPipe,identify_label]
    simp only [insertPipeNl,getClientHost,label,opText]
    split_ifs <;> rfl
  | writeAttr names vers =>
    simp only [Request.insert,insertAttrNl,getClientHost,label,opText]
    split_ifs <;> rfl
  | writeAttr4 names clId =>
    simp only [Request.insert,Function.comp_apply,identify_label]
    rfl
  | wrAttr names rNames clId vers =>
    simp only [Request.insert,Function.comp_apply,identify_label]
    simp only [insertAttrWrNl,getClientHost,label,opText]
    split_ifs <;> rfl

theorem insert_identText (c : Client) (hc : r.caller = .client c) :
    identText (r.insert e) = identText (r.insert e') := by
  obtain ⟨call,time,caller⟩ := r
  cases hc
  cases call with
  | corbaAttr _ => rfl
  | cmd _ _ _ => rfl
  | op _ _ => rfl
  | attr _ _ _ => rfl
  | writeAttr _ _ => rfl
  | cmdClIdent cmd clId vers sour =>
    exact identText_identify (f := insertCmdNl time (.client c) cmd vers sour) (fun _ => rfl)
  | opClIdent op bare clId => exact identText_identify (f := insertOpNl time (.client c) op) (fun _ => rfl)
  | attrClIdent names clId vers sour =>
    exact identText_identify (f := insertAttrNl5 time (.client c) names vers sour) (fun _ => rfl)
  | readPipe name clId =>
    exact identText_identify (f := insertPipeNl time (.client c) .readPipe5 name) (fun _ => rfl)
  | writePipe name clId vers =>
    let op : OpType := if vers = 0 then .writePipe5 else .writeReadPipe5
    exact identText_identify (f := insertPipeNl time (.client c) op name) (fun _ => rfl)
  | writeAttr4 names clId => exact identText_identify (f := insertAttrNl4 time (.client c) names) (fun _ => rfl)
  | wrAttr names rNames clId vers =>
    exact identText_identify (f := insertAttrWrNl time (.client c) names rNames vers) (fun _ => rfl)

/-- Who can be told from a slot that held an address of the same host: everyone but the init sequence. -/
def Request.Kept (r : Request) (e : BlackBoxElt) : Prop :=
  r.call.known ∧ (r.caller = .thread false true → charAt e.hostIpStr 5 ≠ 'u')

theorem insert_requestedFrom (h : r.caller = .thread false true → charAt e.hostIpStr 5 ≠ 'u')
    (h' : r.caller = .thread false true → charAt e'.hostIpStr 5 ≠ 'u') :
    requestedFrom env (r.insert e) = requestedFrom env (r.insert e') := by
  cases hc : r.caller with
  | client c =>
    exact requestedFrom_client (hc ▸ insert_hostIpStr) (hc ▸ insert_hostIpStr) (insert_identText c hc)
  | thread polling starting =>
    rw [requestedFrom_thread (hc ▸ insert_hostIpStr) (fun hp hs => h (by rw [hc,hp,hs])),
      requestedFrom_thread (hc ▸ insert_hostIpStr) (fun hp hs => h' (by rw [hc,hp,hs]))]

theorem buildInfo_congr {y : BlackBoxElt} (hl : label x = label y) (hr : requestedFrom env x = requestedFrom env y) :
    buildInfoAsStr env x = buildInfoAsStr env y := by
  simp only [label,Prod.mk.injEq] at hl
  obtain ⟨ht,hreq,hat,hop,htext⟩ := hl
  simp only [buildInfoAsStr,ht,hreq,hat,hop,htext,hr]

/-- A slot nothing was ever written to. -/
def clean : BlackBoxElt := ⟨.unknown,.unknown,.unknown,"",[],0,['\x00'],.dev,false,.cpp,0,""⟩

def ownText (env : Env) (r : Request) : String := buildInfoAsStr env (r.insert clean)

/-- The text of a request is its own, whatever the slot held before. -/
theorem text_own (h : r.Kept e) : buildInfoAsStr env (r.insert e) = ownText env r :=
  buildInfo_congr (insert_label h.1) (insert_requestedFrom h.2 (fun _ => by decide))

end Requests

section Readings
variable {env : Env}

/-- A box that recorded some requests since it was new, and how many elements are asked for. -/
structure Reading where
  box : Lib.Ring BlackBoxElt
  new : NewBox box
  log : List Request
  log_ne : log ≠ []
  wanted : Int
  one_le : 1 ≤ wanted

def Reading.answer (env : Env) (x : Reading) : Except DevErrorList (List String) :=
  read env x.wanted (recorded x.box x.log)

def Reading.held (x : Reading) : Nat := min x.log.length x.box.cells.length

/-- Every request met a slot it can be told from. -/
def Reading.Kept (x : Reading) : Prop := Lib.Ring.Each Request.insert Request.Kept x.box x.log

/-- As many strings as there may be, newest first, each the text of its own request; and two readings tell the
same of equal requests. -/
structure Truthful (env : Env) (x y : Reading) (out out' : List String) : Prop where
  count : out.length = min x.wanted.toNat x.held
  newestFirst : out = (x.log.reverse.take out.length).map (ownText env)
  same : ∀ k r, x.log.reverse[k]? = some r → y.log.reverse[k]? = some r → k < out.length → k < out'.length →
    out[k]? = out'[k]?

theorem Reading.answer_eq {x : Reading} (h : x.Kept) :
    x.answer env = .ok ((x.log.reverse.take (min x.wanted.toNat x.held)).map (ownText env)) := by
  have hnb : (recorded x.box x.log).nbElt = x.held := Lib.Ring.run_nbElt x.box x.new.nbElt x.log
  have hlen : (recorded x.box x.log).cells.length = x.box.cells.length := Lib.Ring.run_length x.box x.log
  have hlog : 0 < x.log.length := List.length_pos_iff.mpr x.log_ne
  have hdepth := x.box.depth_pos
  have hone := x.one_le
  have hheld : x.held ≠ 0 := by
    unfold held
    omega
  have hmin : min (min x.wanted.toNat x.box.cells.length) x.held = min x.wanted.toNat x.held := by
    unfold held
    omega
  rw [answer,read,if_neg (by omega),hnb,hlen,if_neg hheld,hmin]
  have hrec := Lib.Ring.run_recent_each (R := fun e r => buildInfoAsStr env e = ownText env r)
    (fun _ _ hk => text_own hk) x.box h (min x.wanted.toNat x.held) (by unfold held; omega) (by unfold held; omega)
  have hmap := List.forall₂_map_left_iff.mpr (List.forall₂_map_right_iff.mpr hrec)
  exact congrArg Except.ok (List.forall₂_eq_eq_eq ▸ hmap)

/-- A box of depth 1. -/
def oneSlot : Lib.Ring BlackBoxElt := Lib.Ring.make 1 clean (by decide)

theorem oneSlot_new : NewBox oneSlot :=
  ⟨rfl,rfl,fun e he => by
    rw [List.eq_of_mem_replicate he]
    exact ⟨rfl,rfl,rfl,rfl,rfl⟩⟩

def userOp (op : OpType) (h : op.bare = true) : Request := ⟨.op op h,0,.thread false false⟩

def remote : Client := ⟨⟨false,"giop:tcp:192.168.0.1:4000",.cpp,0,"",(0,0)⟩,by decide,by decide⟩

/-- A client of an older release reads an attribute of an IDL 5 device, which passes its own version. -/
def oldRead : Request := ⟨.attr ["att"] 5 .dev,1,.client remote⟩

def afterPing : Reading := ⟨oneSlot,oneSlot_new,[userOp .ping rfl,oldRead],by simp,1,by decide⟩

def afterInfo : Reading := ⟨oneSlot,oneSlot_new,[userOp .info rfl,oldRead],by simp,1,by decide⟩

def plainEnv : Env := ⟨fun _ => "01/01/2024 00:00:00:00",String.ofList,"server"⟩

/-- A box that recorded one ping. -/
def onePing (n : Int) (h : 1 ≤ n) : Reading := ⟨oneSlot,oneSlot_new,[userOp .ping rfl],by simp,n,h⟩

theorem onePing_kept {n : Int} (h : 1 ≤ n) : (onePing n h).Kept := fun pre o post he => by
  cases pre with
  | nil =>
    cases he
    exact ⟨trivial,fun hc => by cases hc⟩
  | cons a pre => simp [onePing] at he

end Readings

end CppTango.Device.BlackBox
