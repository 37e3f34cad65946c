import LumiOS.Telephony.Calls

/-!
# Telephony — Airplane

Airplane mode along the runs of telephonyd.

`network_set_airplane` switches the radio off and sets the flag, which `call_originate` and
`data_connect` look at; it does not touch the data connection and the calls there are, and
`call_answer` does not look at the flag.  So airplane mode is silent exactly when it is switched on in
silence and no call is answered in it; and then a `data_connect` that succeeds has a context behind it
(`airplane_silent_iff`).
-/

namespace LumiOS.Telephony

open Support

/-! ### telephonyd_init -/

/-- What becomes of opening a device: the descriptor, if there is one, and the outcomes of
`tcgetattr` and of the first command. -/
structure Device where
  fd : Option Nat
  tcgetattr : Bool
  reply : Reply

def modemOpen (t : Telephonyd) (device : Device) : Int × Telephonyd :=
  match device.fd with
  | none => (-1, t)
  | some fd =>
    if device.tcgetattr = false then (-1, t)
    else
      let (ret, _, t) := { t with modemFd := (fd : Int) }.send (ascii "AT") device.reply
      if ret < 0 then (-1, { t with modemFd := -1 }) else (0, t)

/-- The loop of `telephonyd_init` over the paths of modems. -/
def openFirst : List Device → Telephonyd → Telephonyd
  | [], t => t
  | device :: devices, t =>
    let (ret, t) := modemOpen t device
    if ret = 0 then t else openFirst devices t

/-- After `memset`, without a modem. -/
def Telephonyd.zero : Telephonyd where
  modemFd := -1
  signalTech := .unknown
  regState := .notRegistered
  calls := .empty
  data := ⟨false, .cut CStr.pos_64 [], .cut CStr.pos_16 [], .unknown, 0, 0⟩
  airplaneMode := false
  sent := []

/-- `telephonyd_init`.  The history begins after it. -/
def telephonydInit (devices : List Device) : Telephonyd :=
  { openFirst devices .zero with sent := [] }

theorem openFirst_kept (devices : List Device) (t : Telephonyd) :
    (openFirst devices t).calls = t.calls ∧ (openFirst devices t).data = t.data ∧
      (openFirst devices t).airplaneMode = t.airplaneMode := by
  have hopen : ∀ (t : Telephonyd) (device : Device), (modemOpen t device).2.calls = t.calls ∧
      (modemOpen t device).2.data = t.data ∧
      (modemOpen t device).2.airplaneMode = t.airplaneMode := by
    intro t device
    simp only [modemOpen, Telephonyd.send]
    cases device.fd with
    | none => exact ⟨rfl, rfl, rfl⟩
    | some fd =>
        by_cases hg : device.tcgetattr = false
        · simp [hg]
        · rcases modemSendAt_eq fd device.reply with h | h <;> simp [hg, h]
  induction devices generalizing t with
  | nil => exact ⟨rfl, rfl, rfl⟩
  | cons device devices ih =>
      simp only [openFirst]
      split
      · exact hopen t device
      · obtain ⟨h₁, h₂, h₃⟩ := ih (modemOpen t device).2
        obtain ⟨k₁, k₂, k₃⟩ := hopen t device
        exact ⟨h₁.trans k₁, h₂.trans k₂, h₃.trans k₃⟩

/-! ### Silence -/

def CallTable.Silent (table : CallTable) : Prop :=
  ∀ c ∈ table.list, c.state ≠ .dialing ∧ c.state ≠ .active

/-- Nothing is sent or received. -/
def Telephonyd.Silent (t : Telephonyd) : Prop := t.data.active = false ∧ t.calls.Silent

/-- The modem has activated a context, which neither airplane mode nor `data_disconnect` has taken
down since. -/
def ContextUp (sent : List (List UInt8 × Int)) : Prop :=
  ∃ new old, sent = new ++ (activateContext, 0) :: old ∧
    ∀ e ∈ new, e.1 ≠ radioOff ∧ e.1 ≠ deactivateContext

/-- A `data_connect` that succeeds has a context behind it. -/
def Op.Connected (t : Telephonyd) : Op → Prop
  | .connect apn reply₁ reply₂ reply₃ =>
      (dataConnect t apn reply₁ reply₂ reply₃).1 = 0 →
        ContextUp (dataConnect t apn reply₁ reply₂ reply₃).2.sent
  | _ => True

/-- Airplane mode is switched on in silence, and no call of the table is answered in it. -/
def Op.Grounded (t : Telephonyd) : Op → Prop
  | .airplane true _ _ _ => t.Silent
  | .answer callId reply => t.airplaneMode = true → Accepts t reply → callId ∉ t.calls.ids
  | _ => True

/-! ### The history -/

/-- Commands that take no context down. -/
def Harmless (cmd : List UInt8) : Prop := cmd ≠ radioOff ∧ cmd ≠ deactivateContext

instance (cmd : List UInt8) : Decidable (Harmless cmd) := inferInstanceAs (Decidable (_ ∧ _))

/-- A step that leaves the flag and the connection, and sends harmless commands only. -/
structure Aside (t t' : Telephonyd) : Prop where
  airplaneMode : t'.airplaneMode = t.airplaneMode
  data : t'.data = t.data
  sent : ∃ new, t'.sent = new ++ t.sent ∧ ∀ e ∈ new, Harmless e.1

section

variable {t t' t'' : Telephonyd} {op : Op}

theorem harmless_snprintf {size : Nat} {pre text : List UInt8} (hlen : pre.length ≤ size - 1)
    (hoff : radioOff.take pre.length ≠ pre) (hdown : deactivateContext.take pre.length ≠ pre) :
    Harmless (snprintf size (pre ++ text)) := by
  have htake : (snprintf size (pre ++ text)).take pre.length = pre := by
    rw [snprintf, List.take_take, Nat.min_eq_left hlen, List.take_left]
  exact ⟨fun e => hoff (e ▸ htake), fun e => hdown (e ▸ htake)⟩

theorem ContextUp.append {sent new : List (List UInt8 × Int)} (h : ContextUp sent)
    (hnew : ∀ e ∈ new, Harmless e.1) : ContextUp (new ++ sent) := by
  obtain ⟨mid, old, rfl, hmid⟩ := h
  refine ⟨new ++ mid, old, (List.append_assoc _ _ _).symm, fun e he => ?_⟩
  rcases List.mem_append.mp he with he | he
  · exact hnew e he
  · exact hmid e he

namespace Aside

theorem refl (t : Telephonyd) : Aside t t := ⟨rfl, rfl, [], rfl, by simp⟩

theorem trans (h : Aside t t') (h' : Aside t' t'') : Aside t t'' := by
  obtain ⟨new, e, hn⟩ := h.sent
  obtain ⟨new', e', hn'⟩ := h'.sent
  refine ⟨h'.airplaneMode.trans h.airplaneMode, h'.data.trans h.data, new' ++ new, ?_, ?_⟩
  · rw [e', e, List.append_assoc]
  · intro e he
    rcases List.mem_append.mp he with he | he
    · exact hn' e he
    · exact hn e he

theorem send {cmd : List UInt8} (hc : Harmless cmd) (t : Telephonyd) (reply : Reply) :
    Aside t (t.send cmd reply).2.2 :=
  ⟨rfl, rfl, [(cmd, (modemSendAt t.modemFd reply).1)], rfl, by simpa using hc⟩

theorem setCalls (t : Telephonyd) (calls : CallTable) : Aside t { t with calls := calls } :=
  ⟨rfl, rfl, [], rfl, by simp⟩

theorem setCall (t : Telephonyd) (callId : Int32) (state : CallState) :
    Aside t (t.setCall callId state).2 := by
  simp only [Telephonyd.setCall]
  split
  · exact setCalls t _
  · exact refl t

/-- A harmless command, and then a call in another state, if the modem takes it. -/
theorem send_setCall {cmd : List UInt8} {reply : Reply} {callId : Int32} {state : CallState}
    {r : Int × Telephonyd} (hc : Harmless cmd)
    (hr : r = if (t.send cmd reply).1 < 0 then (-1, (t.send cmd reply).2.2)
      else (t.send cmd reply).2.2.setCall callId state) : Aside t r.2 := by
  have hs := send hc t reply
  subst hr
  split
  · exact hs
  · exact hs.trans (setCall _ _ _)

end Aside

theorem callOriginate_aside (t : Telephonyd) (number : Option (List UInt8)) (reply : Reply) :
    Aside t (callOriginate t number reply).2 := by
  cases number with
  | none => exact .refl t
  | some number =>
      have hc : Harmless (snprintf 64 (ascii "ATD" ++ cstring number ++ ascii ";")) := by
        rw [List.append_assoc]
        exact harmless_snprintf (by decide) (by decide) (by decide)
      have hs := Aside.send hc t reply
      simp only [callOriginate]
      split
      · exact .refl t
      · split
        · exact .refl t
        · rcases modemSendAt_eq t.modemFd reply with h | h
          · simp only [Telephonyd.send, h] at hs ⊢
            exact hs.trans (.setCalls _ _)
          · simp only [Telephonyd.send, h] at hs ⊢
            exact hs

theorem callAnswer_aside (t : Telephonyd) (callId : Int32) (reply : Reply) :
    Aside t (callAnswer t callId reply).2 :=
  .send_setCall (by decide : Harmless (ascii "ATA")) rfl

theorem callHold_aside (t : Telephonyd) (callId : Int32) (reply : Reply) :
    Aside t (callHold t callId reply).2 :=
  .send_setCall (by decide : Harmless (ascii "AT+CHLD=2")) rfl

theorem callHangup_aside (t : Telephonyd) (callId : Int32) (reply reply' : Reply) :
    Aside t (callHangup t callId reply reply').2 := by
  have hc : Harmless (snprintf 32 (ascii "AT+CHLD=1" ++ printInt callId)) :=
    harmless_snprintf (by decide) (by decide) (by decide)
  have hs := (Aside.send hc t reply).trans (.send (by decide : Harmless (ascii "ATH")) _ reply')
  simp only [callHangup]
  split
  · exact hs.trans (.setCalls _ _)
  · exact hs

theorem networkRegister_aside (t : Telephonyd) (reply₁ reply₂ : Reply) :
    Aside t (networkRegister t reply₁ reply₂).2 := by
  have h₁ := Aside.send (by decide : Harmless (ascii "AT+CREG=1")) t reply₁
  have h₂ := h₁.trans (.send (by decide : Harmless (ascii "AT+COPS=0")) _ reply₂)
  rcases modemSendAt_eq t.modemFd reply₁ with e₁ | e₁
  · rcases modemSendAt_eq t.modemFd reply₂ with e₂ | e₂
    · simp only [networkRegister, Telephonyd.send, e₁, e₂] at h₂ ⊢
      exact ⟨h₂.airplaneMode, h₂.data, h₂.sent⟩
    · simp only [networkRegister, Telephonyd.send, e₁, e₂] at h₂ ⊢
      exact h₂
  · simp only [networkRegister, Telephonyd.send, e₁] at h₁ ⊢
    exact h₁

/-- What `data_connect` does: nothing, or a context is activated, or the connection stays as it
was. -/
theorem dataConnect_cases (t : Telephonyd) (apn : List UInt8) (reply₁ reply₂ reply₃ : Reply) :
    (dataConnect t apn reply₁ reply₂ reply₃).2 = t ∧
        ((dataConnect t apn reply₁ reply₂ reply₃).1 = 0 → t.data.active = true) ∨
      (dataConnect t apn reply₁ reply₂ reply₃).2.airplaneMode = t.airplaneMode ∧
        t.airplaneMode = false ∧
        ((dataConnect t apn reply₁ reply₂ reply₃).1 = -1 ∧
            (dataConnect t apn reply₁ reply₂ reply₃).2.data = t.data ∧ t.data.active = false ∨
          ContextUp (dataConnect t apn reply₁ reply₂ reply₃).2.sent) := by
  by_cases ha : t.airplaneMode = true
  · left
    simp [dataConnect, ha]
  · have ha : t.airplaneMode = false := Bool.eq_false_iff.mpr ha
    by_cases hd : t.data.active = true
    · left
      simp [dataConnect, ha, hd]
    · have hd : t.data.active = false := Bool.eq_false_iff.mpr hd
      right
      rcases modemSendAt_eq t.modemFd reply₁ with h₁ | h₁
      · rcases modemSendAt_eq t.modemFd reply₂ with h₂ | h₂
        · refine ⟨by simp [dataConnect, ha, hd, Telephonyd.send, h₁, h₂], ha, .inr ?_⟩
          refine ⟨[(ascii "AT+CGPADDR=1", (modemSendAt t.modemFd reply₃).1)],
            (snprintf 128 (ascii "AT+CGDCONT=1,\"IP\",\"" ++ cstring apn ++ ascii "\""), 0) :: t.sent,
            by simp [dataConnect, ha, hd, Telephonyd.send, h₁, h₂], ?_⟩
          intro e he
          rw [List.mem_singleton.mp he]
          exact (by decide : Harmless (ascii "AT+CGPADDR=1"))
        · exact ⟨by simp [dataConnect, ha, hd, Telephonyd.send, h₁, h₂], ha,
            .inl (by simp [dataConnect, ha, hd, Telephonyd.send, h₁, h₂])⟩
      · exact ⟨by simp [dataConnect, ha, hd, Telephonyd.send, h₁], ha,
          .inl (by simp [dataConnect, ha, hd, Telephonyd.send, h₁])⟩

end

/-! ### Along a run -/

section

variable {t t' : Telephonyd} {op : Op} {ops : List Op} {devices : List Device}

/-- What holds along a run that is grounded. -/
structure Telephonyd.Well (t : Telephonyd) : Prop where
  silent : t.airplaneMode = true → t.Silent
  context : t.data.active = true → ContextUp t.sent

theorem Telephonyd.Well.aside (h : t.Well) (ha : Aside t t')
    (hc : t.airplaneMode = true → t'.calls.Silent) : t'.Well := by
  obtain ⟨new, e, hnew⟩ := ha.sent
  constructor
  · intro hm
    rw [ha.airplaneMode] at hm
    exact ⟨by rw [ha.data]; exact (h.silent hm).1, hc hm⟩
  · intro hd
    rw [ha.data] at hd
    rw [e]
    exact (h.context hd).append hnew

/-- An update to a state without sound, or to no call, adds no sound. -/
theorem CallTable.Silent.update {table table' : CallTable} {callId : Int32}
    {f : Call → Option Call} (hf : ∀ c d, f c = some d → d.state ≠ .dialing ∧ d.state ≠ .active)
    (h : table.Silent) (hu : table.update callId f = some table') : table'.Silent := by
  obtain ⟨pre, c, post, e, -, e'⟩ := update_eq_some hu
  intro d hd
  rw [e'] at hd
  rcases List.mem_append.mp hd with hd | hd
  · rcases List.mem_append.mp hd with hd | hd
    · exact h d (by rw [e]; exact List.mem_append_left _ hd)
    · exact hf c d (Option.mem_toList.mp hd)
  · exact h d (by rw [e]; exact List.mem_append_right _ (.tail _ hd))

/-- Answering a call of the table makes it active. -/
theorem not_silent_of_update {table table' : CallTable} {callId : Int32}
    (hu : table.update callId (fun c => some { c with state := .active }) = some table') :
    callId ∈ table.ids ∧ ¬ table'.Silent := by
  obtain ⟨pre, c, post, e, hc, e'⟩ := CallTable.update_eq_some hu
  constructor
  · rw [CallTable.ids, e, ← hc]
    simp
  · intro h
    exact (h { c with state := .active } (by rw [e']; simp)).2 rfl

theorem CallTable.exists_update {table : CallTable} {callId : Int32} (f : Call → Option Call)
    (h : callId ∈ table.ids) : ∃ table', table.update callId f = some table' := by
  cases hu : table.update callId f with
  | some table' => exact ⟨table', rfl⟩
  | none =>
      have hnone : atCall callId f table.list = none := by
        simp only [update] at hu
        split at hu
        · assumption
        · cases hu
      have hno : ∀ cs : List Call, atCall callId f cs = none → callId ∉ cs.map (·.callId) := by
        intro cs
        induction cs with
        | nil => simp
        | cons c cs ih =>
            intro hc
            rw [atCall] at hc
            split at hc
            · cases hc
            · rename_i hne
              rw [List.map_cons, List.mem_cons, not_or]
              exact ⟨Ne.symm hne, ih (Option.map_eq_none_iff.mp hc)⟩
      exact absurd h (hno _ hnone)

theorem callAnswer_not_silent {callId : Int32} {reply : Reply} (ha : Accepts t reply)
    (hm : callId ∈ t.calls.ids) : ¬ (callAnswer t callId reply).2.calls.Silent := by
  have hr : (modemSendAt t.modemFd reply).1 = 0 := ha
  obtain ⟨table', hu⟩ := CallTable.exists_update (fun c => some { c with state := .active }) hm
  have hcalls : (callAnswer t callId reply).2.calls = table' := by
    simp [callAnswer, Telephonyd.send, hr, Telephonyd.setCall, hu]
  rw [hcalls]
  exact (not_silent_of_update hu).2

theorem Step.well (hs : Step t op t') (h : t.Well) (hg : op.Grounded t) : t'.Well := by
  -- what the step does to a silent table, in airplane mode
  have hcalls : t.airplaneMode = true → t'.calls.Silent := by
    intro hm
    have hsil := (h.silent hm).2
    rcases hs.calls with e | ⟨n, reply, -, hd, -⟩ | ⟨callId, reply, rfl, ha, e⟩ | ⟨callId, e⟩ |
      ⟨callId, e⟩
    · rw [e]
      exact hsil
    · exact absurd (hm.symm.trans hd.2.1) (by decide)
    · exact absurd (not_silent_of_update e).1 (hg hm ha)
    · exact hsil.update (by rintro c d ⟨⟩; exact ⟨by simp, by simp⟩) e
    · exact hsil.update (by rintro c d ⟨⟩) e
  cases op with
  | originate number reply => exact h.aside (hs ▸ callOriginate_aside t number reply) hcalls
  | answer callId reply => exact h.aside (hs ▸ callAnswer_aside t callId reply) hcalls
  | hold callId reply => exact h.aside (hs ▸ callHold_aside t callId reply) hcalls
  | hangup callId reply reply' => exact h.aside (hs ▸ callHangup_aside t callId reply reply') hcalls
  | connect apn reply₁ reply₂ reply₃ =>
      have hs : (dataConnect t apn reply₁ reply₂ reply₃).2 = t' := hs
      rcases dataConnect_cases t apn reply₁ reply₂ reply₃ with ⟨e, -⟩ | ⟨e, ha, hd⟩
      · rw [← hs, e]
        exact h
      · rw [hs] at e hd
        refine ⟨fun hm => absurd ((hm.symm.trans e).trans ha) (by decide), fun hact => ?_⟩
        rcases hd with ⟨-, hdata, hoff⟩ | hup
        · rw [hdata, hoff] at hact
          cases hact
        · exact hup
  | disconnect reply =>
      have hs : (dataDisconnect t reply).2 = t' := hs
      have hoff : t'.data.active = false ∧ t'.airplaneMode = t.airplaneMode := by
        rw [← hs]
        by_cases hd : t.data.active = false <;> simp [dataDisconnect, hd, Telephonyd.send]
      exact ⟨fun hm => ⟨hoff.1, hcalls (hoff.2 ▸ hm)⟩, fun hact => absurd (hact.symm.trans hoff.1) (by decide)⟩
  | airplane enabled reply₁ reply₂ reply₃ =>
      have hs : (networkSetAirplane t enabled reply₁ reply₂ reply₃).2 = t' := hs
      cases enabled with
      | true =>
          have hsil : t.Silent := hg
          rw [← hs]
          exact ⟨fun _ => hsil, fun hact => absurd (hact.symm.trans hsil.1) (by decide)⟩
      | false =>
          have haside : Aside { t with airplaneMode := false } t' := by
            rw [← hs]
            exact (Aside.send (by decide : Harmless (ascii "AT+CFUN=1")) _ reply₁).trans
              (networkRegister_aside _ reply₂ reply₃)
          have hoff : Telephonyd.Well { t with airplaneMode := false } :=
            ⟨fun hm => absurd hm Bool.false_ne_true, h.context⟩
          exact hoff.aside haside fun hm => absurd hm Bool.false_ne_true

theorem connected_of_well (h : t.Well) (op : Op) : op.Connected t := by
  cases op with
  | connect apn reply₁ reply₂ reply₃ =>
      intro hr
      rcases dataConnect_cases t apn reply₁ reply₂ reply₃ with ⟨e, hact⟩ | ⟨-, -, hd⟩
      · rw [e]
        exact h.context (hact hr)
      · rcases hd with ⟨hfail, -⟩ | hup
        · exact absurd (hr.symm.trans hfail) (by decide)
        · exact hup
  | _ => trivial

/-- A step into a state that is silent in airplane mode was grounded. -/
theorem Step.grounded (hs : Step t op t') (h : t'.airplaneMode = true → t'.Silent) :
    op.Grounded t := by
  cases op with
  | answer callId reply =>
      intro hm ha hid
      have hs : (callAnswer t callId reply).2 = t' := hs
      have hm' : t'.airplaneMode = true := by
        rw [← hs, (callAnswer_aside t callId reply).airplaneMode]
        exact hm
      exact callAnswer_not_silent ha hid (hs ▸ (h hm').2)
  | airplane enabled reply₁ reply₂ reply₃ =>
      cases enabled with
      | true =>
          have hs : (networkSetAirplane t true reply₁ reply₂ reply₃).2 = t' := hs
          subst hs
          exact h rfl
      | false => trivial
  | _ => trivial

/-- **Airplane mode.**  In every run from `telephonyd_init`, airplane mode is silent and every
`data_connect` that succeeds has a context behind it, exactly when airplane mode is switched on in
silence only and no call of the table is answered in it. -/
theorem airplane_silent_iff (devices : List Device) (ops : List Op) :
    ((∀ t, Passes Step (telephonydInit devices) ops t → t.airplaneMode = true → t.Silent) ∧
      ∀ t op t', Takes Step (telephonydInit devices) ops t op t' → op.Connected t) ↔
    ∀ t op t', Takes Step (telephonydInit devices) ops t op t' → op.Grounded t := by
  constructor
  · rintro ⟨hsilent, -⟩ t op t' htake
    exact htake.rel.grounded (hsilent t' htake.target)
  · intro hground
    have hwell : ∀ t, Passes Step (telephonydInit devices) ops t → t.Well := by
      intro t hpass
      refine hpass.induction (P := Telephonyd.Well) ?_ fun t op t' htake h =>
        htake.rel.well h (hground t op t' htake)
      obtain ⟨-, hdata, hmode⟩ := openFirst_kept devices .zero
      exact ⟨fun hm => absurd (hm.symm.trans hmode) (by decide),
        fun hact => absurd (hact.symm.trans (congrArg DataConn.active hdata)) (by decide)⟩
    exact ⟨fun t hpass => (hwell t hpass).silent,
      fun t op t' htake => connected_of_well (hwell t htake.source) op⟩

end

/-- Data is connected, and airplane mode switched on. -/
def connectThenFly : List Op := [.connect (ascii "internet") .ok .ok .ok, .airplane true .ok .ok .ok]

/-- The connection is still marked active in airplane mode. -/
theorem airplane_not_silent :
    ¬ ∀ devices ops,
      (∀ t, Passes Step (telephonydInit devices) ops t → t.airplaneMode = true → t.Silent) ∧
        ∀ t op t', Takes Step (telephonydInit devices) ops t op t' → op.Connected t := by
  intro h
  let t₀ := telephonydInit [⟨some 3, true, .ok⟩]
  have hpass : Passes Step t₀ connectThenFly (exec connectThenFly t₀) :=
    ⟨connectThenFly, [], by simp, run_exec connectThenFly t₀⟩
  have hsil := (h [⟨some 3, true, .ok⟩] connectThenFly).1 _ hpass (by decide)
  exact absurd hsil.1 (by decide)

end LumiOS.Telephony
