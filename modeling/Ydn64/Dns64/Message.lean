import Ydn64.GoStd.NetIP

/-!
# DNS messages

The part of `github.com/miekg/dns` that the resolver reads and writes: records,
messages, and the functions of the library as a parameter (`DnsLib`).
A record is its owner name, class, TTL and data; which Go type holds it is the
constructor of the data.  A record with an empty RDATA is decoded to a zero
value, so the address of an `a` or `aaaa` record may be empty.

`CopyTo` copies every section and is the identity here.
-/

namespace Ydn64.Dns64

open Ydn64.GoStd

/-! ## Records -/

def typeA : UInt16 := 1
def typePTR : UInt16 := 12
def typeAAAA : UInt16 := 28
def typeANY : UInt16 := 255

def classINET : UInt16 := 1

/-- `dns.EDNS0`. -/
structure EdnsOption where
  code : UInt16
  data : Bytes
  deriving DecidableEq, Repr

/-- The data of a record by its Go type. -/
inductive RData where
  /-- `*dns.A` -/
  | a (addr : IP)
  /-- `*dns.AAAA` -/
  | aaaa (addr : IP)
  /-- `*dns.PTR` -/
  | ptr (target : String)
  /-- `*dns.SOA` -/
  | soa (rdata : Bytes)
  /-- `*dns.OPT` -/
  | opt (options : List EdnsOption)
  /-- Any other type, a CNAME for one. -/
  | other (rrtype : UInt16) (rdata : Bytes)
  deriving DecidableEq, Repr

/-- `dns.RR` with its header. -/
structure RR where
  name : String
  rclass : UInt16
  ttl : UInt32
  data : RData
  deriving DecidableEq, Repr

namespace RR

/-- The address of an A record. -/
def a? (rr : RR) : Option IP :=
  match rr.data with
  | .a addr => some addr
  | _ => none

/-- The address of an AAAA record. -/
def aaaa? (rr : RR) : Option IP :=
  match rr.data with
  | .aaaa addr => some addr
  | _ => none

/-- The target of a PTR record. -/
def ptr? (rr : RR) : Option String :=
  match rr.data with
  | .ptr target => some target
  | _ => none

def isSOA (rr : RR) : Bool :=
  match rr.data with
  | .soa _ => true
  | _ => false

def isOPT (rr : RR) : Bool :=
  match rr.data with
  | .opt _ => true
  | _ => false

/-- `OPT.Do`: the DNSSEC OK bit is a bit of the TTL field. -/
def isDo (rr : RR) : Bool := rr.ttl &&& 0x8000 == 0x8000

/-- The record without its TTL. -/
def untimed (rr : RR) : RR := { rr with ttl := 0 }

end RR

/-! ## Messages -/

/-- `dns.Question`. -/
structure Question where
  name : String
  qtype : UInt16
  qclass : UInt16
  deriving DecidableEq, Repr

def rcodeSuccess : Nat := 0
def rcodeFormatError : Nat := 1
def rcodeServerFailure : Nat := 2
def rcodeNameError : Nat := 3

/-- `dns.Msg`. -/
structure Msg where
  id : UInt16 := 0
  response : Bool := false
  opcode : Nat := 0
  authoritative : Bool := false
  truncated : Bool := false
  recursionDesired : Bool := false
  recursionAvailable : Bool := false
  zero : Bool := false
  authenticatedData : Bool := false
  checkingDisabled : Bool := false
  rcode : Nat := 0
  question : List Question := []
  answer : List RR := []
  ns : List RR := []
  extra : List RR := []
  deriving DecidableEq, Repr

namespace Msg

/-- A reply without records. -/
def emptyReply (req : Msg) (rcode : Nat) : Msg where
  id := req.id
  response := true
  opcode := req.opcode
  recursionDesired := req.opcode == 0 && req.recursionDesired
  checkingDisabled := req.opcode == 0 && req.checkingDisabled
  rcode := rcode
  question := req.question.take 1

/-- The last OPT record of the additional section. -/
def opt? (m : Msg) : Option RR := m.extra.reverse.find? RR.isOPT

/-- The sender validates on its own: it sets CD and DO. -/
def validates (m : Msg) : Bool := m.checkingDisabled && m.opt?.any RR.isDo

/-- `m.Question[0].Qtype = qtype`. -/
def setQtype (m : Msg) (qtype : UInt16) : Msg :=
  match m.question with
  | [] => m
  | q :: qs => { m with question := { q with qtype } :: qs }

/-- `m.Question[0].Name = name`. -/
def setQname (m : Msg) (name : String) : Msg :=
  match m.question with
  | [] => m
  | q :: qs => { m with question := { q with name } :: qs }

@[simp] theorem setQtype_extra (m : Msg) (qtype : UInt16) :
    (m.setQtype qtype).extra = m.extra := by
  unfold setQtype
  split <;> rfl

@[simp] theorem setQtype_answer (m : Msg) (qtype : UInt16) :
    (m.setQtype qtype).answer = m.answer := by
  unfold setQtype
  split <;> rfl

end Msg

/-- The transports `viaUDP` and `viaTCP`. -/
inductive Via where
  | udp
  | tcp
  deriving DecidableEq, Repr

/-! ## The library -/

/-- The TTL of the text of a record without one. -/
def defaultTTL : UInt32 := 3600

/-- The functions of the library that the resolver calls, and what is asked of
them. -/
structure DnsLib where
  /-- Which names the parser of `dns.NewRR` accepts. -/
  accepts : String → Bool
  /-- `dns.NewRR` on `"name ttl IN AAAA addr"`. -/
  newAAAA (name : String) (ttl : UInt32) (addr : IP) : Option RR
  /-- `dns.NewRR` on `"name ttl IN A addr"`. -/
  newA (name : String) (ttl : UInt32) (v4 : IP) : Option RR
  /-- `dns.NewRR` on `"name IN PTR target"`. -/
  newPTR (name target : String) : Option RR
  /-- `dns.ReverseAddr` of an IPv4 address. -/
  reverseAddr (v4 : Addr4) : String
  /-- `Msg.SetRcode`, which is `SetReply` with another response code. -/
  setRcode (req : Msg) (rcode : Nat) : Msg
  /-- `Msg.IsEdns0`. -/
  isEdns0 (m : Msg) : Option RR
  /-- The OPT record that `SetEdns0` appends, with the options put into it. -/
  newOPT (udpSize : Nat) (dnssecOK : Bool) (options : List EdnsOption) : RR
  newAAAA_eq_some {name : String} {ttl : UInt32} {addr : IP} {rr : RR} :
    newAAAA name ttl addr = some rr → ⟨name, classINET, ttl, .aaaa addr⟩ = rr
  -- The text of an address under `::ffff:0:0/96` is dotted, which the parser refuses.
  newAAAA_of_accepts {name : String} (ttl : UInt32) {addr : IP} : accepts name = true →
    to4 addr = none → addr.length = 16 →
    newAAAA name ttl addr = some ⟨name, classINET, ttl, .aaaa addr⟩
  newPTR_eq_some {name target : String} {rr : RR} :
    newPTR name target = some rr → ⟨name, classINET, defaultTTL, .ptr target⟩ = rr
  setRcode_eq (req : Msg) (rcode : Nat) : setRcode req rcode = req.emptyReply rcode
  isEdns0_eq (m : Msg) : isEdns0 m = m.opt?
  newOPT_data (udpSize : Nat) (dnssecOK : Bool) (options : List EdnsOption) :
    (newOPT udpSize dnssecOK options).data = .opt options
  newOPT_isDo (udpSize : Nat) (dnssecOK : Bool) (options : List EdnsOption) :
    (newOPT udpSize dnssecOK options).isDo = dnssecOK

end Ydn64.Dns64
