import LumiOS.Support.Simulates
import LumiOS.Telephony.CallArray

/-!
# Telephony — CallMemory

The calls as they lie in memory: eight entries, each with a `char number[32]`, and a counter.  An entry
that is used again still holds the number of an earlier call, and behind the last call the array holds
what was there before.

`Calls.lean` knows nothing of this.  That it needs not is `calls_refined`: in every run, on whatever the
array held at first, each function returns what it returns there and leaves the calls it leaves there,
and the counter never gets past the array.
-/

namespace LumiOS.Telephony

open Support

/-! ### The array -/

/-- `tcall_t`. -/
structure TCall where
  state : CallState
  number : Buf 32
  callId : Int32
  multiparty : Bool
deriving DecidableEq, Repr

/-- The call, when its number is read as a string. -/
def TCall.call (c : TCall) : Call where
  state := c.state
  number := c.number.string
  callId := c.callId
  multiparty := c.multiparty

/-- The assignments of `call_originate` to an entry. -/
def TCall.dial (c : TCall) (number : List UInt8) (callId : Int32) : TCall where
  state := .dialing
  number := c.number.strncpy number
  callId := callId
  multiparty := false

/-- `telephonyd_t` in memory.  The calls of `rest` are not used: these are `calls` and `num_calls`. -/
structure TelephonydMem where
  rest : Telephonyd
  calls : List TCall
  length_calls : calls.length = maxCalls
  numCalls : Nat

namespace TelephonydMem

/-- The loop that looks for a call. -/
def find (m : TelephonydMem) (callId : Int32) : Option Nat :=
  (m.calls.take m.numCalls).findIdx? fun c => c.callId = callId

/-- `calls[i]` is written. -/
def modify (m : TelephonydMem) (i : Nat) (f : TCall → TCall) : TelephonydMem :=
  { m with
    calls := m.calls.modify i f
    length_calls := by rw [List.length_modify, m.length_calls] }

/-- `calls[num_calls++]` of `call_originate`, where there is room. -/
def dial (m : TelephonydMem) (number : List UInt8) : TelephonydMem :=
  if m.numCalls < maxCalls then
    { m.modify m.numCalls fun c => c.dial number (Int32.ofNat (m.numCalls + 1)) with
      numCalls := m.numCalls + 1 }
  else m

/-- The loop that moves the calls down over `calls[i]`. -/
def removeAt (m : TelephonydMem) (i : Nat) : TelephonydMem :=
  { m with
    calls := shiftDown i (m.numCalls - 1 - i) m.calls
    length_calls := by rw [shiftDown_length, m.length_calls]
    numCalls := m.numCalls - 1 }

/-! ### call.c -/

/-- `modem_send_at`. -/
def send (m : TelephonydMem) (cmd : List UInt8) (reply : Reply) : Int × TelephonydMem :=
  ((m.rest.send cmd reply).1, { m with rest := (m.rest.send cmd reply).2.2 })

def callOriginate (m : TelephonydMem) (number : Option (List UInt8)) (reply : Reply) :
    Int × TelephonydMem :=
  match number with
  | none => (-1, m)
  | some number =>
    if cstring number = [] then (-1, m)
    else if m.rest.airplaneMode then (-1, m)
    else
      let (ret, m) := m.send (snprintf 64 (ascii "ATD" ++ cstring number ++ ascii ";")) reply
      if ret < 0 then (-1, m)
      else
        let m := m.dial number
        (m.numCalls, m)

/-- The end of `call_answer` and `call_hold`. -/
def setCall (m : TelephonydMem) (callId : Int32) (state : CallState) : Int × TelephonydMem :=
  match m.find callId with
  | some i => (0, m.modify i fun c => { c with state := state })
  | none => (-1, m)

def callAnswer (m : TelephonydMem) (callId : Int32) (reply : Reply) : Int × TelephonydMem :=
  let (ret, m) := m.send (ascii "ATA") reply
  if ret < 0 then (-1, m) else m.setCall callId .active

def callHold (m : TelephonydMem) (callId : Int32) (reply : Reply) : Int × TelephonydMem :=
  let (ret, m) := m.send (ascii "AT+CHLD=2") reply
  if ret < 0 then (-1, m) else m.setCall callId .held

/-- The end of `call_hangup`. -/
def dropCall (m : TelephonydMem) (callId : Int32) : Int × TelephonydMem :=
  match m.find callId with
  | some i => (0, (m.modify i fun c => { c with state := .released }).removeAt i)
  | none => (-1, m)

def callHangup (m : TelephonydMem) (callId : Int32) (reply reply' : Reply) : Int × TelephonydMem :=
  let (_, m) := m.send (snprintf 32 (ascii "AT+CHLD=1" ++ printInt callId)) reply
  let (_, m) := m.send (ascii "ATH") reply'
  m.dropCall callId

/-- A function that has nothing to do with calls. -/
def onRest (m : TelephonydMem) (f : Telephonyd → Int × Telephonyd) : Int × TelephonydMem :=
  ((f m.rest).1, { m with rest := (f m.rest).2 })

def run (m : TelephonydMem) : Op → Int × TelephonydMem
  | .originate number reply => m.callOriginate number reply
  | .answer callId reply => m.callAnswer callId reply
  | .hold callId reply => m.callHold callId reply
  | .hangup callId reply reply' => m.callHangup callId reply reply'
  | .connect apn reply₁ reply₂ reply₃ => m.onRest (dataConnect · apn reply₁ reply₂ reply₃)
  | .disconnect reply => m.onRest (dataDisconnect · reply)
  | .airplane enabled reply₁ reply₂ reply₃ =>
    m.onRest (networkSetAirplane · enabled reply₁ reply₂ reply₃)

/-! ### What the memory shows -/

def table (m : TelephonydMem) : CallTable where
  list := (m.calls.take m.numCalls).map TCall.call
  length_le := by
    rw [List.length_map, ← m.length_calls]
    exact List.length_take_le' _ _

/-- The counter is within the array, and the memory shows this state. -/
def Shows (m : TelephonydMem) (t : Telephonyd) : Prop :=
  m.numCalls ≤ maxCalls ∧ t = { m.rest with calls := m.table }

end TelephonydMem

section

variable {m m' : TelephonydMem} {t : Telephonyd} {callId : Int32} {pre post : List TCall} {c : TCall}
  {f : TCall → TCall} {i : Nat} {op : Op}

theorem CallTable.eq_of_list {table table' : CallTable} (h : table.list = table'.list) :
    table = table' := by
  cases table
  cases h
  rfl

namespace TelephonydMem

/-- No call has the id, or the loop finds the first that has it. -/
theorem find_cases (m : TelephonydMem) (callId : Int32) :
    (m.find callId = none ∧ ∀ c ∈ m.calls.take m.numCalls, c.callId ≠ callId) ∨
    ∃ pre c post, m.calls.take m.numCalls = pre ++ c :: post ∧ (∀ d ∈ pre, d.callId ≠ callId) ∧
      c.callId = callId ∧ m.find callId = some pre.length := by
  cases hf : m.find callId with
  | none =>
      rw [find, List.findIdx?_eq_none_iff] at hf
      exact .inl ⟨rfl, fun c hc => of_decide_eq_false (hf c hc)⟩
  | some i =>
      obtain ⟨hi, hc, hpre⟩ := List.findIdx?_eq_some_iff_getElem.mp hf
      refine .inr ⟨_, _, _, (List.take_append_drop i _).symm.trans
        (congrArg _ (List.drop_eq_getElem_cons hi)), fun d hd => ?_, of_decide_eq_true hc, ?_⟩
      · obtain ⟨j, hj, rfl⟩ := List.mem_iff_getElem.mp hd
        rw [List.length_take] at hj
        have hno := hpre j (by omega)
        rw [List.getElem_take]
        exact fun e => hno (decide_eq_true e)
      · rw [List.length_take, Nat.min_eq_left hi.le]

/-- The calls the memory shows. -/
theorem table_list {cs : List TCall} (h : m.calls.take m.numCalls = cs) :
    m.table.list = cs.map TCall.call := h ▸ rfl

/-- What is done to the call that was found is done to the table. -/
theorem update_found {g : Call → Option Call} (hfind : m.find callId = some i)
    (h : ∀ pre c post, m.calls.take m.numCalls = pre ++ c :: post → i = pre.length →
      m'.table.list = pre.map TCall.call ++ (g c.call).toList ++ post.map TCall.call) :
    m.table.update callId g = some m'.table := by
  rcases m.find_cases callId with ⟨hnone, -⟩ | ⟨pre, c, post, hlist, hpre, hc, hi⟩
  · exact nomatch hfind.symm.trans hnone
  have hold : m.table.list = pre.map TCall.call ++ c.call :: post.map TCall.call := by
    rw [table_list hlist, List.map_append, List.map_cons]
  have hpre' : ∀ d ∈ pre.map TCall.call, d.callId ≠ callId := List.forall_mem_map.mpr hpre
  obtain ⟨table', hupdate, htable⟩ := CallTable.update_append (f := g) hold hpre' hc
  rw [hupdate]
  exact congrArg some (CallTable.eq_of_list
    (htable.trans (h pre c post hlist (Option.some.inj (hfind.symm.trans hi))).symm))

theorem update_none (hfind : m.find callId = none) (g : Call → Option Call) :
    m.table.update callId g = none := by
  rcases m.find_cases callId with ⟨-, hnone⟩ | ⟨_, _, _, -, -, -, hi⟩
  · exact CallTable.update_eq_none (List.forall_mem_map.mpr hnone)
  · exact nomatch hfind.symm.trans hi

theorem update_modify {g : Call → Option Call} (hg : ∀ c : TCall, g c.call = some (f c).call)
    (hfind : m.find callId = some i) : m.table.update callId g = some (m.modify i f).table := by
  refine update_found hfind ?_
  rintro pre c post hlist rfl
  have htake : (m.modify pre.length f).calls.take m.numCalls = pre ++ f c :: post := by
    rw [modify, List.take_modify, hlist, modify_append_cons]
  rw [hg, Option.toList_some, List.append_assoc, List.singleton_append, ← List.map_cons,
    ← List.map_append]
  exact table_list htake

theorem update_removeAt (hm : m.numCalls ≤ maxCalls) (hfind : m.find callId = some i) :
    m.table.update callId (fun _ => none) = some ((m.modify i f).removeAt i).table := by
  refine update_found hfind ?_
  rintro pre c post hlist rfl
  have htake : ((m.modify pre.length f).removeAt pre.length).calls.take (m.numCalls - 1) =
      pre ++ post := take_shiftDown f (hm.trans m.length_calls.ge) hlist
  rw [Option.toList_none, List.append_nil, ← List.map_append]
  exact table_list htake

theorem dial_table (hm : m.numCalls ≤ maxCalls) (number : List UInt8) :
    (m.dial number).table = m.table.dial number ∧ (m.dial number).numCalls ≤ maxCalls ∧
      (m.dial number).rest = m.rest := by
  have htaken : (m.calls.take m.numCalls).length = m.numCalls := by
    rw [List.length_take, m.length_calls, Nat.min_eq_left hm]
  have hlen : m.table.list.length = m.numCalls := by
    rw [table_list rfl, List.length_map, htaken]
  by_cases hroom : m.numCalls < maxCalls
  · have hget : m.numCalls < m.calls.length := m.length_calls ▸ hroom
    rw [dial, if_pos hroom]
    refine ⟨CallTable.eq_of_list ?_, hroom, rfl⟩
    rw [CallTable.dial_list (hlen.symm ▸ hroom)]
    -- the entry behind the calls becomes one of them
    have htake : (m.calls.modify m.numCalls fun c =>
          c.dial number (Int32.ofNat (m.numCalls + 1))).take (m.numCalls + 1) =
        m.calls.take m.numCalls ++
          [m.calls[m.numCalls].dial number (Int32.ofNat (m.numCalls + 1))] := by
      have hmodify := modify_append_cons (fun c => c.dial number (Int32.ofNat (m.numCalls + 1)))
        (m.calls.take m.numCalls) [] m.calls[m.numCalls]
      rw [htaken] at hmodify
      rw [List.take_modify, List.take_succ_eq_append_getElem hget, hmodify]
    refine (table_list htake).trans ?_
    rw [List.map_append]
    refine congrArg _ (congrArg (fun c => [c]) ?_)
    simp only [TCall.call, TCall.dial, CallTable.newCall, hlen, Buf.strncpy_eq, Buf.string_holding]
  · rw [dial, if_neg hroom]
    exact ⟨(CallTable.dial_full (hlen.symm ▸ hroom)).symm, hm, rfl⟩

/-! ### Each function -/

/-- Two functions returned the same, and what the one left in memory shows what the other left. -/
def Matches (r : Int × TelephonydMem) (r' : Int × Telephonyd) : Prop :=
  r.1 = r'.1 ∧ r.2.Shows r'.2

theorem Shows.send (h : m.Shows t) (cmd : List UInt8) (reply : Reply) :
    (m.send cmd reply).1 = (t.send cmd reply).1 ∧
      (m.send cmd reply).2.Shows (t.send cmd reply).2.2 := by
  obtain ⟨hm, rfl⟩ := h
  exact ⟨rfl, hm, rfl⟩

theorem Shows.dial (h : m.Shows t) (number : List UInt8) :
    Matches (((m.dial number).numCalls : Int), m.dial number)
      (((t.calls.dial number).list.length : Int), { t with calls := t.calls.dial number }) := by
  obtain ⟨hm, rfl⟩ := h
  obtain ⟨hdial, hle, hrest⟩ := dial_table hm number
  have hlen : (m.dial number).table.list.length = (m.dial number).numCalls := by
    rw [table_list rfl, List.length_map, List.length_take, length_calls, Nat.min_eq_left hle]
  refine ⟨?_, hle, ?_⟩
  · rw [← hdial, hlen]
  · rw [hdial, hrest]

theorem Shows.originate (h : m.Shows t) (number : Option (List UInt8)) (reply : Reply) :
    Matches (m.callOriginate number reply) (Telephony.callOriginate t number reply) := by
  have hmode : m.rest.airplaneMode = t.airplaneMode := by
    obtain ⟨-, rfl⟩ := h
    rfl
  cases number with
  | none => exact ⟨rfl, h⟩
  | some number =>
      obtain ⟨hret, hs⟩ :=
        h.send (snprintf 64 (ascii "ATD" ++ cstring number ++ ascii ";")) reply
      simp only [callOriginate, Telephony.callOriginate, hmode, hret]
      split
      · exact ⟨rfl, h⟩
      · split
        · exact ⟨rfl, h⟩
        · split
          · exact ⟨rfl, hs⟩
          · exact hs.dial number

/-- The end of `call_answer` and `call_hold`. -/
theorem Shows.setCall (h : m.Shows t) (callId : Int32) (state : CallState) :
    Matches (m.setCall callId state) (t.setCall callId state) := by
  obtain ⟨hm, rfl⟩ := h
  rw [TelephonydMem.setCall, Telephonyd.setCall]
  cases hfind : m.find callId with
  | none =>
      simp only [update_none hfind]
      exact ⟨rfl, hm, rfl⟩
  | some i =>
      have hupdate := update_modify (g := fun c => some { c with state := state })
        (f := fun c => { c with state := state }) (fun _ => rfl) hfind
      simp only [hupdate]
      exact ⟨rfl, hm, rfl⟩

theorem Shows.answer (h : m.Shows t) (callId : Int32) (reply : Reply) :
    Matches (m.callAnswer callId reply) (Telephony.callAnswer t callId reply) := by
  obtain ⟨hret, hs⟩ := h.send (ascii "ATA") reply
  simp only [callAnswer, Telephony.callAnswer, hret]
  split
  · exact ⟨rfl, hs⟩
  · exact hs.setCall callId .active

theorem Shows.hold (h : m.Shows t) (callId : Int32) (reply : Reply) :
    Matches (m.callHold callId reply) (Telephony.callHold t callId reply) := by
  obtain ⟨hret, hs⟩ := h.send (ascii "AT+CHLD=2") reply
  simp only [callHold, Telephony.callHold, hret]
  split
  · exact ⟨rfl, hs⟩
  · exact hs.setCall callId .held

/-- The end of `call_hangup`. -/
theorem Shows.dropCall (h : m.Shows t) (callId : Int32) :
    Matches (m.dropCall callId) (match t.calls.update callId fun _ => none with
      | some calls => (0, { t with calls := calls })
      | none => (-1, t)) := by
  obtain ⟨hm, rfl⟩ := h
  rw [TelephonydMem.dropCall]
  cases hfind : m.find callId with
  | none =>
      simp only [update_none hfind]
      exact ⟨rfl, hm, rfl⟩
  | some i =>
      simp only [update_removeAt (f := fun c => { c with state := .released }) hm hfind]
      exact ⟨rfl, (Nat.sub_le _ _).trans hm, rfl⟩

theorem Shows.hangup (h : m.Shows t) (callId : Int32) (reply reply' : Reply) :
    Matches (m.callHangup callId reply reply') (Telephony.callHangup t callId reply reply') :=
  let ⟨_, hs⟩ := h.send (snprintf 32 (ascii "AT+CHLD=1" ++ printInt callId)) reply
  let ⟨_, hs'⟩ := hs.send (ascii "ATH") reply'
  hs'.dropCall callId

/-- A function that has nothing to do with calls. -/
theorem Shows.onRest (h : m.Shows t) {g : Telephonyd → Int × Telephonyd}
    (hg : ∀ t calls, g { t with calls := calls } = ((g t).1, { (g t).2 with calls := calls })) :
    Matches (m.onRest g) (g t) := by
  obtain ⟨hm, rfl⟩ := h
  rw [hg]
  exact ⟨rfl, hm, rfl⟩

theorem dataConnect_with (apn : List UInt8) (reply₁ reply₂ reply₃ : Reply) (t : Telephonyd)
    (calls : CallTable) :
    dataConnect { t with calls := calls } apn reply₁ reply₂ reply₃ =
      ((dataConnect t apn reply₁ reply₂ reply₃).1,
        { (dataConnect t apn reply₁ reply₂ reply₃).2 with calls := calls }) := by
  by_cases ha : t.airplaneMode = true
  · simp only [dataConnect, ha, if_true]
  · by_cases hd : t.data.active = true
    · simp only [dataConnect, ha, hd, if_true, Bool.false_eq_true, if_false]
    · rcases modemSendAt_eq t.modemFd reply₁ with h₁ | h₁ <;>
        rcases modemSendAt_eq t.modemFd reply₂ with h₂ | h₂ <;>
          simp [dataConnect, ha, hd, Telephonyd.send, h₁, h₂]

theorem dataDisconnect_with (reply : Reply) (t : Telephonyd) (calls : CallTable) :
    dataDisconnect { t with calls := calls } reply =
      ((dataDisconnect t reply).1, { (dataDisconnect t reply).2 with calls := calls }) := by
  by_cases hd : t.data.active = false <;> simp [dataDisconnect, hd, Telephonyd.send]

theorem networkSetAirplane_with (enabled : Bool) (reply₁ reply₂ reply₃ : Reply) (t : Telephonyd)
    (calls : CallTable) :
    networkSetAirplane { t with calls := calls } enabled reply₁ reply₂ reply₃ =
      ((networkSetAirplane t enabled reply₁ reply₂ reply₃).1,
        { (networkSetAirplane t enabled reply₁ reply₂ reply₃).2 with calls := calls }) := by
  cases enabled with
  | true => rfl
  | false =>
      rcases modemSendAt_eq t.modemFd reply₂ with h₂ | h₂ <;>
        rcases modemSendAt_eq t.modemFd reply₃ with h₃ | h₃ <;>
          simp [networkSetAirplane, networkRegister, Telephonyd.send, h₂, h₃]

/-- **Each function does what it does on the table.** -/
theorem Shows.run (h : m.Shows t) (op : Op) : Matches (m.run op) (op.run t) := by
  cases op with
  | originate number reply => exact h.originate number reply
  | answer callId reply => exact h.answer callId reply
  | hold callId reply => exact h.hold callId reply
  | hangup callId reply reply' => exact h.hangup callId reply reply'
  | connect apn reply₁ reply₂ reply₃ => exact h.onRest (dataConnect_with apn _ _ _)
  | disconnect reply => exact h.onRest (dataDisconnect_with reply)
  | airplane enabled reply₁ reply₂ reply₃ => exact h.onRest (networkSetAirplane_with enabled _ _ _)

end TelephonydMem

end

/-! ### Runs -/

/-- A function call, and what it returned. -/
def Answers (t : Telephonyd) (e : Op × Int) (t' : Telephonyd) : Prop := e.1.run t = (e.2, t')

def TelephonydMem.Answers (m : TelephonydMem) (e : Op × Int) (m' : TelephonydMem) : Prop :=
  m.run e.1 = (e.2, m')

theorem answers_simulates :
    Simulates TelephonydMem.Shows TelephonydMem.Answers Answers := by
  intro m e m' t h hrun
  have hrun : m.run e.1 = (e.2, m') := hrun
  obtain ⟨hret, hshows⟩ := h.run e.1
  rw [hrun] at hret hshows
  exact ⟨_, Prod.ext hret.symm rfl, hshows⟩

/-- **The table of calls is what the memory shows.**  Along every run on the array, from whatever it
holds behind the calls, the functions return what they return on the table, the calls are those of the
table, and the counter never leaves the array. -/
theorem calls_refined {m : TelephonydMem} (hm : m.numCalls ≤ maxCalls) {es : List (Op × Int)}
    {m₁ : TelephonydMem} (h : Passes TelephonydMem.Answers m es m₁) :
    m₁.numCalls ≤ maxCalls ∧
      Passes Answers { m.rest with calls := m.table } es { m₁.rest with calls := m₁.table } := by
  obtain ⟨t₁, hpass, hm₁, rfl⟩ := answers_simulates.passes ⟨hm, rfl⟩ h
  exact ⟨hm₁, hpass⟩

/-- An entry with a number left over from an earlier call. -/
def TCall.stale : TCall where
  state := .released
  number := (Buf.zero CStr.pos_32).strncpy (ascii "13800138000")
  callId := 1
  multiparty := false

/-- A telephonyd whose calls have all ended. -/
def hungUpMem : TelephonydMem where
  rest := idle
  calls := List.replicate maxCalls .stale
  length_calls := List.length_replicate
  numCalls := 0

theorem calls_refined_stale :
    (hungUpMem.run (dial "10086")).2.numCalls ≤ maxCalls ∧
      Passes Answers { hungUpMem.rest with calls := hungUpMem.table } [(dial "10086", 1)]
        { (hungUpMem.run (dial "10086")).2.rest with
          calls := (hungUpMem.run (dial "10086")).2.table } := by
  have hret : (hungUpMem.run (dial "10086")).1 = 1 := by decide
  have hrun : Run TelephonydMem.Answers hungUpMem [(dial "10086", 1)]
      (hungUpMem.run (dial "10086")).2 := .one (Prod.ext hret rfl)
  exact calls_refined (Nat.zero_le _) ⟨_, [], (List.append_nil _).symm, hrun⟩

end LumiOS.Telephony
