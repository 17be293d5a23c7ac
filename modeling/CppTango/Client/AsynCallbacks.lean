import CppTango.Client.AsynReq
import CppTango.Device.MultiAttribute
import CppTango.Lib.Keyed
import Mathlib.Logic.Function.Basic

namespace CppTango.Client.AsynCallbacks

open CppTango.Lib CppTango.Device
open CppTango.Client.Asyn (ReqType)

/-- An asynchronous request with a callback: the request object of the ORB, the device it goes to, the callback and
what was asked. Objects are numbered as they are made. -/
structure Issued where
  request : Nat
  dev : Nat
  cbPtr : Nat
  reqType : ReqType
deriving DecidableEq, Repr

/-- The request in the tables, with whether its reply has been taken from the ORB. -/
structure TgRequest extends Issued where
  arrived : Bool
deriving DecidableEq, Repr

/-- The callback tables with the counters of the devices, and the ORB: the requests without reply, and those whose
reply can be taken. Kept for the reader are all requests, and those whose callback has been called. -/
structure CbState where
  cbDevTable : List TgRequest
  cbReqTable : List TgRequest
  pasynCbCtr : Nat → Int
  outstanding : List Nat
  ready : List Nat
  next : Nat
  issued : List Issued
  called : List Issued

section Tables

/-- `std::multimap::insert`: behind the entries of the same device. -/
def insertDev (r : TgRequest) (l : List TgRequest) : List TgRequest :=
  l.takeWhile (fun q => q.dev ≤ r.dev) ++ r :: l.dropWhile (fun q => q.dev ≤ r.dev)

/-- `std::map::insert`: an entry that is there stays. -/
def insertReq (r : TgRequest) (l : List TgRequest) : List TgRequest :=
  if l.any (fun q => q.request = r.request) then l else l ++ [r]

/-- `store_request` of callback mode. -/
def CbState.storeRequest (s : CbState) (r : Issued) : CbState :=
  { s with cbDevTable := insertDev ⟨r,false⟩ s.cbDevTable,cbReqTable := insertReq ⟨r,false⟩ s.cbReqTable }

/-- `get_request` for a request object. -/
def CbState.getRequest (s : CbState) (req : Nat) : Option TgRequest := s.cbReqTable.find? (fun q => q.request = req)

/-- `get_request` for a device: one whose reply has been taken. -/
def CbState.getArrived (s : CbState) (dev : Nat) : Option TgRequest :=
  s.cbDevTable.find? (fun q => q.dev = dev && q.arrived)

def marked (req : Nat) (l : List TgRequest) : List TgRequest :=
  updateFirst (fun q => q.request = req) (fun q => { q with arrived := true }) l

/-- The mark in the one table, and `mark_as_arrived` for the other. -/
def CbState.markAsArrived (s : CbState) (req : Nat) : CbState :=
  { s with cbDevTable := marked req s.cbDevTable,cbReqTable := marked req s.cbReqTable }

/-- `remove_request` of callback mode. -/
def CbState.removeRequest (s : CbState) (dev req : Nat) : CbState :=
  { s with
    cbDevTable := s.cbDevTable.eraseP (fun q => q.dev = dev && q.request = req)
    cbReqTable := s.cbReqTable.eraseP (fun q => q.request = req) }

def CbState.addToCtr (s : CbState) (dev : Nat) (n : Int) : CbState :=
  { s with pasynCbCtr := Function.update s.pasynCbCtr dev (s.pasynCbCtr dev + n) }

end Tables

section Requests

/-- `command_inout_asynch`, `read_attributes_asynch` or `write_attributes_asynch` with a callback: the request is
stored, counted and sent. -/
def asynch (s : CbState) (dev cbPtr : Nat) (reqType : ReqType) : CbState :=
  let s := (s.storeRequest ⟨s.next,dev,cbPtr,reqType⟩).addToCtr dev 1
  { s with outstanding := s.outstanding ++ [s.next],next := s.next + 1,
           issued := s.issued ++ [⟨s.next,dev,cbPtr,reqType⟩] }

/-- A reply comes in. -/
def arriveOne (s : CbState) (req : Nat) : CbState :=
  if req ∈ s.outstanding then { s with outstanding := s.outstanding.erase req,ready := s.ready ++ [req] } else s

def arrive (s : CbState) (reqs : List Nat) : CbState := reqs.foldl arriveOne s

/-- The requests that the callback of a request makes. -/
abbrev Callbacks := Nat → List (Nat × Nat × ReqType)

variable (callbacks : Callbacks)

/-- The callback is called, with the reply of its request. What it throws is caught. -/
def fire (s : CbState) (r : Issued) : CbState :=
  (callbacks r.request).foldl (fun s x => asynch s x.1 x.2.1 x.2.2) { s with called := s.called ++ [r] }

/-- A request is done with: its callback is called, then it is removed and counted down. -/
def served (s : CbState) (r : Issued) : CbState :=
  ((fire callbacks s r).removeRequest r.dev r.request).addToCtr r.dev (-1)

end Requests

section Replies

/-- How a call ends: it may go on, and what follows the use of an erased entry is not defined. -/
inductive Outcome
  | returned
  | thrown (errors : DevErrorList)
  | waiting
  | undefined
deriving DecidableEq, Repr

def badAsyn : DevErrorList :=
  thrown "API_BadAsyn" "Failed to find a asynchronous callback request " "AsynReq::get_request"

def notArrived (origin : String) : DevErrorList :=
  thrown "API_AsynReplyNotArrived" "Still some reply(ies) for asynchronous callback call(s) to be received" origin

variable (callbacks : Callbacks)

/-- `get_next_response` and what is done with it: a reply for the one device that is asked for, or for any, is served;
another one is only marked. -/
def takeNext (this : Option Nat) (s : CbState) (req : Nat) (rest : List Nat) : CbState × Bool :=
  match s.getRequest req with
  | none => ({ s with ready := rest },false)
  | some r =>
    if this = none ∨ this = some r.dev then
      (served callbacks ({ s with ready := rest }.markAsArrived req) r.toIssued,true)
    else ({ s with ready := rest }.markAsArrived req,true)

/-- The loop over the replies that can be taken. Before each look at the ORB more replies may come in. -/
def pollAll (this : Option Nat) : List (List Nat) → CbState → Outcome × CbState
  | [],s => (.waiting,s)
  | reqs :: looks,s =>
    match (arrive s reqs).ready with
    | [] => (.returned,arrive s reqs)
    | req :: rest =>
      match takeNext callbacks this (arrive s reqs) req rest with
      | (s,true) => pollAll this looks s
      | (s,false) => (.thrown badAsyn,s)

/-- The loop over the requests of a device that are marked: each turn removes one. -/
def serveArrived (dev : Nat) : Nat → CbState → CbState
  | 0,s => s
  | n+1,s =>
    match s.getArrived dev with
    | none => s
    | some r => serveArrived dev n (served callbacks s r.toIssued)

/-- The loop over the whole table, which goes on from the entry that it has just erased. -/
def serveTable (s : CbState) : Outcome × CbState :=
  if s.cbDevTable.any (·.arrived) then (.undefined,s) else (.returned,s)

/-- The loop of a call with a time-out: a reply at most after each sleep, while requests are `pending`. -/
def waitFor (this : Option Nat) (pending : CbState → Bool) (origin : String) :
    Nat → List (List Nat) → CbState → Outcome × CbState
  | 0,_,s => if pending s then (.thrown (notArrived origin),s) else (.returned,s)
  | nb+1,looks,s =>
    if pending s then
      match (arrive s (looks.headD [])).ready with
      | [] => waitFor this pending origin nb looks.tail (arrive s (looks.headD []))
      | req :: rest =>
        match takeNext callbacks this (arrive s (looks.headD [])) req rest with
        | (s,true) => waitFor this pending origin nb looks.tail s
        | (s,false) => (.thrown badAsyn,s)
    else (.returned,s)

/-- The loop of a call without one: each reply is waited for. -/
def waitAll (this : Option Nat) (pending : CbState → Bool) : List (List Nat) → CbState → Outcome × CbState
  | [],s => if pending s then (.waiting,s) else (.returned,s)
  | reqs :: looks,s =>
    if pending s then
      match (arrive s reqs).ready with
      | [] => waitAll this pending looks (arrive s reqs)
      | req :: rest =>
        match takeNext callbacks this (arrive s reqs) req rest with
        | (s,true) => waitAll this pending looks s
        | (s,false) => (.thrown badAsyn,s)
    else (.returned,s)

/-- The second half of the calls with a time-out in milliseconds; a negative one is not waited for at all. -/
def waitReplies (this : Option Nat) (pending : CbState → Bool) (origin : String) (callTimeout : Int)
    (looks : List (List Nat)) (s : CbState) : Outcome × CbState :=
  if pending s then
    if callTimeout ≠ 0 then
      if callTimeout.tdiv 20 < 0 then (.returned,s)
      else waitFor callbacks this pending origin (callTimeout.tdiv 20).toNat looks s
    else waitAll callbacks this pending looks s
  else (.returned,s)

/-- `Connection::get_asynch_replies`. -/
def getAsynchReplies (dev : Nat) (looks : List (List Nat)) (s : CbState) : Outcome × CbState :=
  match pollAll callbacks (some dev) looks s with
  | (.returned,s) => (.returned,serveArrived callbacks dev s.cbDevTable.length s)
  | r => r

/-- `Connection::get_asynch_replies` with a time-out. -/
def getAsynchRepliesTimeout (dev : Nat) (callTimeout : Int) (looks : List (List Nat)) (s : CbState) :
    Outcome × CbState :=
  waitReplies callbacks (some dev) (fun s => s.pasynCbCtr dev ≠ 0) "Connection::get_asynch_replies" callTimeout looks
    (serveArrived callbacks dev s.cbDevTable.length s)

/-- `ApiUtil::get_asynch_replies`. -/
def getAllReplies (looks : List (List Nat)) (s : CbState) : Outcome × CbState :=
  match pollAll callbacks none looks s with
  | (.returned,s) => serveTable s
  | r => r

/-- `ApiUtil::get_asynch_replies` with a time-out. -/
def getAllRepliesTimeout (callTimeout : Int) (looks : List (List Nat)) (s : CbState) : Outcome × CbState :=
  match serveTable s with
  | (.returned,s) =>
    waitReplies callbacks none (fun s => s.cbReqTable.length ≠ 0) "ApiUtil::get_asynch_replies" callTimeout looks s
  | r => r

end Replies

section Runs

inductive Act
  | asynch (dev cbPtr : Nat) (reqType : ReqType)
  | arrive (reqs : List Nat)
  | getAsynchReplies (dev : Nat) (looks : List (List Nat))
  | getAsynchRepliesTimeout (dev : Nat) (callTimeout : Int) (looks : List (List Nat))
  | getAllReplies (looks : List (List Nat))
  | getAllRepliesTimeout (callTimeout : Int) (looks : List (List Nat))
deriving DecidableEq, Repr

variable (callbacks : Callbacks)

def step (s : CbState) : Act → Outcome × CbState
  | .asynch dev cbPtr reqType => (.returned,asynch s dev cbPtr reqType)
  | .arrive reqs => (.returned,arrive s reqs)
  | .getAsynchReplies dev looks => getAsynchReplies callbacks dev looks s
  | .getAsynchRepliesTimeout dev callTimeout looks => getAsynchRepliesTimeout callbacks dev callTimeout looks s
  | .getAllReplies looks => getAllReplies callbacks looks s
  | .getAllRepliesTimeout callTimeout looks => getAllRepliesTimeout callbacks callTimeout looks s

/-- Calls one after the other, as long as they end. -/
def run : List Act → CbState → Outcome × CbState
  | [],s => (.returned,s)
  | act :: acts,s =>
    match step callbacks s act with
    | (.returned,s) => run acts s
    | (.thrown _,s) => run acts s
    | r => r

/-- A client that has asked for nothing. -/
def fresh : CbState := ⟨[],[],fun _ => 0,[],[],0,[],[]⟩

end Runs

end CppTango.Client.AsynCallbacks
