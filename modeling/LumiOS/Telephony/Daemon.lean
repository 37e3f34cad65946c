import LumiOS.Support.Numerals

/-!
# Telephony — Daemon

The state of telephonyd, `modem_send_at`, and the functions of `call.c`, `data.c` and `network.c` that
place calls, connect data and switch airplane mode.

What the modem answers to a command is a `Reply`; a function that sends several commands takes one for
each.  The table of calls is `calls` up to `num_calls`.
-/

namespace LumiOS.Telephony

open Support

/-! ### The modem -/

/-- What becomes of a command: whether `write` takes it, and what each `read` after it returns. -/
structure Reply where
  written : Bool
  reads : List (List UInt8)
deriving Repr

/-- `char resp[256]`. -/
def respSize : Nat := 256

/-- Whether the loop of `modem_send_at` has read enough. -/
def isFinal (resp : List UInt8) : Bool :=
  (strstr (ascii "OK") (cstring resp)).isSome ∨ (strstr (ascii "ERROR") (cstring resp)).isSome

/-- The loop of `modem_send_at`, with `retries` rounds left and `resp` read so far. -/
def readLoop : Nat → List UInt8 → List (List UInt8) → List UInt8
  | 0, resp, _ => resp
  | _ + 1, resp, [] => resp
  | retries + 1, resp, chunk :: reads =>
    if resp.length < respSize - 1 then
      let chunk := chunk.take (respSize - resp.length - 1)
      if chunk ≠ [] ∧ isFinal (resp ++ chunk) then resp ++ chunk
      else readLoop retries (resp ++ chunk) reads
    else resp

/-- `modem_send_at` on the descriptor `modem_fd`, with the string it leaves in `resp`. -/
def modemSendAt (modemFd : Int) (reply : Reply) : Int × List UInt8 :=
  if modemFd < 0 then (-1, [])
  else if reply.written = false then (-1, [])
  else
    let resp := readLoop 20 [] reply.reads
    if resp = [] then (-1, [])
    else (if (strstr (ascii "OK") (cstring resp)).isSome then 0 else -1, cstring resp)

/-! ### telephonyd_t -/

inductive CallState where
  | idle
  | dialing
  | alerting
  | incoming
  | active
  | held
  | waiting
  | released
deriving DecidableEq, Repr

structure Call where
  state : CallState
  number : CStr 32
  callId : Int32
  multiparty : Bool
deriving DecidableEq, Repr

def maxCalls : Nat := 8

/-- `calls`, up to `num_calls`. -/
structure CallTable where
  list : List Call
  length_le : list.length ≤ maxCalls
deriving DecidableEq, Repr

inductive RadioTech where
  | unknown | gsm | edge | umts | hspa | hspap | lte | lteCa | nr | nrNsa
deriving DecidableEq, Repr

inductive NetReg where
  | notRegistered | home | searching | denied | unknown | roaming
deriving DecidableEq, Repr

structure DataConn where
  active : Bool
  apn : CStr 64
  ip : CStr 16
  tech : RadioTech
  rxBytes : UInt64
  txBytes : UInt64
deriving DecidableEq, Repr

structure Telephonyd where
  modemFd : Int
  /-- `signal.tech`. -/
  signalTech : RadioTech
  regState : NetReg
  calls : CallTable
  data : DataConn
  airplaneMode : Bool
  /-- A history of `modem_send_at`, newest first: each command, and what came of it. -/
  sent : List (List UInt8 × Int)
deriving DecidableEq, Repr

namespace CallTable

def empty : CallTable := ⟨[], Nat.zero_le _⟩

/-- The loops over the table: the first call with this id is replaced by `f` of it. -/
def atCall (callId : Int32) (f : Call → Option Call) : List Call → Option (List Call)
  | [] => none
  | c :: cs => if c.callId = callId then some ((f c).toList ++ cs) else (atCall callId f cs).map (c :: ·)

theorem atCall_eq_some {callId : Int32} {f : Call → Option Call} {cs cs' : List Call} :
    atCall callId f cs = some cs' ↔ ∃ pre c post, cs = pre ++ c :: post ∧ c.callId = callId ∧
      (∀ d ∈ pre, d.callId ≠ callId) ∧ cs' = pre ++ (f c).toList ++ post := by
  induction cs generalizing cs' with
  | nil => simp [atCall]
  | cons c cs ih =>
      rw [atCall]
      split
      · rename_i hc
        constructor
        · rintro ⟨⟩
          exact ⟨[], c, cs, rfl, hc, by simp, rfl⟩
        · rintro ⟨pre, d, post, e, hd, hpre, rfl⟩
          cases pre with
          | nil => cases e; rfl
          | cons p pre =>
              cases e
              exact absurd hc (hpre c List.mem_cons_self)
      · rename_i hc
        rw [Option.map_eq_some_iff]
        constructor
        · rintro ⟨cs₁, h, rfl⟩
          obtain ⟨pre, d, post, rfl, hd, hpre, rfl⟩ := ih.mp h
          refine ⟨c :: pre, d, post, rfl, hd, fun p hp => ?_, rfl⟩
          rcases List.mem_cons.mp hp with rfl | hp
          · exact hc
          · exact hpre p hp
        · rintro ⟨pre, d, post, e, hd, hpre, rfl⟩
          cases pre with
          | nil => cases e; exact absurd hd hc
          | cons p pre =>
              cases e
              exact ⟨pre ++ (f d).toList ++ post,
                ih.mpr ⟨pre, d, post, rfl, hd, fun p hp => hpre p (.tail _ hp), rfl⟩, rfl⟩

theorem atCall_length_le {callId : Int32} {f : Call → Option Call} {cs cs' : List Call}
    (h : atCall callId f cs = some cs') : cs'.length ≤ cs.length := by
  obtain ⟨pre, c, post, rfl, -, -, rfl⟩ := atCall_eq_some.mp h
  have : (f c).toList.length ≤ 1 := by cases f c <;> simp
  simp only [List.length_append, List.length_cons]
  omega

def update (table : CallTable) (callId : Int32) (f : Call → Option Call) : Option CallTable :=
  match h : atCall callId f table.list with
  | none => none
  | some cs => some ⟨cs, (atCall_length_le h).trans table.length_le⟩

/-- `calls[num_calls++]` of `call_originate`, where there is room. -/
def dial (table : CallTable) (number : List UInt8) : CallTable :=
  if h : table.list.length < maxCalls then
    { list := table.list ++
        [{ state := .dialing
           number := .cut CStr.pos_32 number
           callId := Int32.ofNat (table.list.length + 1)
           multiparty := false }]
      length_le := by
        rw [List.length_append]
        exact h }
  else table

end CallTable

namespace Telephonyd

/-- `modem_send_at`, with its mark in the history. -/
def send (t : Telephonyd) (cmd : List UInt8) (reply : Reply) : Int × List UInt8 × Telephonyd :=
  let (ret, resp) := modemSendAt t.modemFd reply
  (ret, resp, { t with sent := (cmd, ret) :: t.sent })

end Telephonyd

/-! ### call.c -/

def callOriginate (t : Telephonyd) (number : Option (List UInt8)) (reply : Reply) :
    Int × Telephonyd :=
  match number with
  | none => (-1, t)
  | some number =>
    if cstring number = [] then (-1, t)
    else if t.airplaneMode then (-1, t)
    else
      let (ret, _, t) := t.send (snprintf 64 (ascii "ATD" ++ cstring number ++ ascii ";")) reply
      if ret < 0 then (-1, t)
      else
        -- the table may be full, which the answer does not tell
        let calls := t.calls.dial number
        ((calls.list.length : Int), { t with calls := calls })

/-- The end of `call_answer` and `call_hold`. -/
def Telephonyd.setCall (t : Telephonyd) (callId : Int32) (state : CallState) : Int × Telephonyd :=
  match t.calls.update callId fun c => some { c with state := state } with
  | some calls => (0, { t with calls := calls })
  | none => (-1, t)

def callAnswer (t : Telephonyd) (callId : Int32) (reply : Reply) : Int × Telephonyd :=
  let (ret, _, t) := t.send (ascii "ATA") reply
  if ret < 0 then (-1, t) else t.setCall callId .active

def callHold (t : Telephonyd) (callId : Int32) (reply : Reply) : Int × Telephonyd :=
  let (ret, _, t) := t.send (ascii "AT+CHLD=2") reply
  if ret < 0 then (-1, t) else t.setCall callId .held

def callHangup (t : Telephonyd) (callId : Int32) (reply reply' : Reply) : Int × Telephonyd :=
  let (_, _, t) := t.send (snprintf 32 (ascii "AT+CHLD=1" ++ printInt callId)) reply
  let (_, _, t) := t.send (ascii "ATH") reply'
  match t.calls.update callId fun _ => none with
  | some calls => (0, { t with calls := calls })
  | none => (-1, t)

/-! ### data.c -/

/-- `"AT+CGACT=1,1"`. -/
def activateContext : List UInt8 := ascii "AT+CGACT=1,1"

/-- `"AT+CGACT=0,1"`. -/
def deactivateContext : List UInt8 := ascii "AT+CGACT=0,1"

/-- The address in the answer to `AT+CGPADDR=1`: between the first two quotes after its name. -/
def assignedIp (resp : List UInt8) : Option (List UInt8) := do
  let p ← strstr (ascii "+CGPADDR:") resp
  let (_, quote) ← breakAt 34 p
  return quote.takeWhile (· ≠ 34)

def dataConnect (t : Telephonyd) (apn : List UInt8) (reply₁ reply₂ reply₃ : Reply) :
    Int × Telephonyd :=
  if t.airplaneMode then (-1, t)
  else if t.data.active then (0, t)
  else
    let (ret, _, t) :=
      t.send (snprintf 128 (ascii "AT+CGDCONT=1,\"IP\",\"" ++ cstring apn ++ ascii "\"")) reply₁
    if ret < 0 then (-1, t)
    else
      let (ret, _, t) := t.send activateContext reply₂
      if ret < 0 then (-1, t)
      else
        let (ret, resp, t) := t.send (ascii "AT+CGPADDR=1") reply₃
        let ip := if ret = 0 then ((assignedIp resp).map (CStr.cut CStr.pos_16)).getD t.data.ip
          else t.data.ip
        (0, { t with
          data :=
            { active := true
              apn := .cut CStr.pos_64 apn
              ip := ip
              tech := t.signalTech
              rxBytes := 0
              txBytes := 0 } })

def dataDisconnect (t : Telephonyd) (reply : Reply) : Int × Telephonyd :=
  if t.data.active = false then (0, t)
  else
    let (_, _, t) := t.send deactivateContext reply
    (0, { t with data := { t.data with active := false } })

/-! ### network.c -/

/-- `"AT+CFUN=4"`. -/
def radioOff : List UInt8 := ascii "AT+CFUN=4"

def networkRegister (t : Telephonyd) (reply₁ reply₂ : Reply) : Int × Telephonyd :=
  let (ret, _, t) := t.send (ascii "AT+CREG=1") reply₁
  if ret < 0 then (-1, t)
  else
    let (ret, _, t) := t.send (ascii "AT+COPS=0") reply₂
    if ret < 0 then (-1, t) else (0, { t with regState := .searching })

def networkSetAirplane (t : Telephonyd) (enabled : Bool) (reply₁ reply₂ reply₃ : Reply) :
    Int × Telephonyd :=
  let t := { t with airplaneMode := enabled }
  if enabled then
    let (_, _, t) := t.send radioOff reply₁
    (0, { t with regState := .notRegistered })
  else
    let (_, _, t) := t.send (ascii "AT+CFUN=1") reply₁
    (0, (networkRegister t reply₂ reply₃).2)

end LumiOS.Telephony
