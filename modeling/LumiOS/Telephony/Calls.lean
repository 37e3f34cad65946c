import LumiOS.Support.Runs
import LumiOS.Telephony.Daemon

/-!
# Telephony — Calls

Runs of telephonyd, one function call at a time, and the table of calls along them.

`call_originate` takes the number of calls after it as the id of the new call, and as its answer.  A
call that ends leaves a gap below, so the next id may be one that is still in use; and when the table is
full there is no new call, and the answer is the id of the last one.  The ids stay distinct, and the
answers true, exactly when neither happens (`calls_distinct_iff`).
-/

namespace LumiOS.Telephony

open Support

/-! ### Operations -/

/-- A call of a function of telephonyd, with the modem's replies. -/
inductive Op where
  | originate (number : Option (List UInt8)) (reply : Reply)
  | answer (callId : Int32) (reply : Reply)
  | hold (callId : Int32) (reply : Reply)
  | hangup (callId : Int32) (reply reply' : Reply)
  | connect (apn : List UInt8) (reply₁ reply₂ reply₃ : Reply)
  | disconnect (reply : Reply)
  | airplane (enabled : Bool) (reply₁ reply₂ reply₃ : Reply)

def Op.run (t : Telephonyd) : Op → Int × Telephonyd
  | .originate number reply => callOriginate t number reply
  | .answer callId reply => callAnswer t callId reply
  | .hold callId reply => callHold t callId reply
  | .hangup callId reply reply' => callHangup t callId reply reply'
  | .connect apn reply₁ reply₂ reply₃ => dataConnect t apn reply₁ reply₂ reply₃
  | .disconnect reply => dataDisconnect t reply
  | .airplane enabled reply₁ reply₂ reply₃ => networkSetAirplane t enabled reply₁ reply₂ reply₃

def Step (t : Telephonyd) (op : Op) (t' : Telephonyd) : Prop := (op.run t).2 = t'

/-- Operations in turn. -/
def exec : List Op → Telephonyd → Telephonyd
  | [], t => t
  | op :: ops, t => exec ops (op.run t).2

theorem run_exec : ∀ (ops : List Op) (t : Telephonyd), Run Step t ops (exec ops t)
  | [], t => .nil t
  | _ :: ops, _ => .cons rfl (run_exec ops _)

/-! ### What a step does to the table -/

section

variable {t t' : Telephonyd} {op : Op} {number : Option (List UInt8)} {reply : Reply}
  {callId : Int32}

theorem modemSendAt_eq (modemFd : Int) (reply : Reply) :
    (modemSendAt modemFd reply).1 = 0 ∨ (modemSendAt modemFd reply).1 = -1 := by
  simp only [modemSendAt]
  split
  · exact .inr rfl
  · split
    · exact .inr rfl
    · split
      · exact .inr rfl
      · by_cases h : (strstr (ascii "OK") (cstring (readLoop 20 [] reply.reads))).isSome
        · rw [if_pos h]
          exact .inl rfl
        · rw [if_neg h]
          exact .inr rfl

/-- The modem takes the command. -/
def Accepts (t : Telephonyd) (reply : Reply) : Prop := (modemSendAt t.modemFd reply).1 = 0

theorem not_accepts (h : ¬ Accepts t reply) : (modemSendAt t.modemFd reply).1 = -1 :=
  (modemSendAt_eq t.modemFd reply).resolve_left h

/-- `call_originate` reaches the table. -/
def Dials (t : Telephonyd) (number : List UInt8) (reply : Reply) : Prop :=
  cstring number ≠ [] ∧ t.airplaneMode = false ∧ Accepts t reply

theorem callOriginate_dials {number : List UInt8} (h : Dials t number reply) :
    (callOriginate t (some number) reply).1 = ((t.calls.dial number).list.length : Int) ∧
      (callOriginate t (some number) reply).2.calls = t.calls.dial number := by
  obtain ⟨hn, ha, hm⟩ := h
  have hm : (modemSendAt t.modemFd reply).1 = 0 := hm
  simp [callOriginate, hn, ha, Telephonyd.send, hm]

theorem callOriginate_of_not (h : ∀ n, number = some n → ¬ Dials t n reply) :
    (callOriginate t number reply).1 = -1 ∧ (callOriginate t number reply).2.calls = t.calls := by
  cases number with
  | none => exact ⟨rfl, rfl⟩
  | some n =>
      simp only [callOriginate]
      split
      · exact ⟨rfl, rfl⟩
      · rename_i hn
        split
        · exact ⟨rfl, rfl⟩
        · rename_i ha
          have hm := not_accepts fun hm => h n rfl ⟨hn, Bool.eq_false_iff.mpr ha, hm⟩
          simp [Telephonyd.send, hm]

theorem setCall_calls (t : Telephonyd) (callId : Int32) (state : CallState) :
    (t.setCall callId state).2.calls = t.calls ∨
      t.calls.update callId (fun c => some { c with state := state }) =
        some (t.setCall callId state).2.calls := by
  simp only [Telephonyd.setCall]
  split
  · rename_i calls h
    exact .inr h
  · exact .inl rfl

/-- A command, and then a call in another state, if the modem takes it. -/
theorem send_setCall_calls {cmd : List UInt8} {state : CallState} {r : Int × Telephonyd}
    (hr : r = if (t.send cmd reply).1 < 0 then (-1, (t.send cmd reply).2.2)
      else (t.send cmd reply).2.2.setCall callId state) :
    r.2.calls = t.calls ∨
      Accepts t reply ∧ t.calls.update callId (fun c => some { c with state := state }) =
        some r.2.calls := by
  subst hr
  by_cases ha : Accepts t reply
  · have hm : (modemSendAt t.modemFd reply).1 = 0 := ha
    simp only [Telephonyd.send, hm, lt_irrefl, if_false]
    exact (setCall_calls { t with sent := (cmd, 0) :: t.sent } callId state).imp id fun h => ⟨ha, h⟩
  · left
    simp [Telephonyd.send, not_accepts ha]

theorem callAnswer_calls (t : Telephonyd) (callId : Int32) (reply : Reply) :
    (callAnswer t callId reply).2.calls = t.calls ∨
      Accepts t reply ∧ t.calls.update callId (fun c => some { c with state := .active }) =
        some (callAnswer t callId reply).2.calls :=
  send_setCall_calls rfl

theorem callHold_calls (t : Telephonyd) (callId : Int32) (reply : Reply) :
    (callHold t callId reply).2.calls = t.calls ∨
      t.calls.update callId (fun c => some { c with state := .held }) =
        some (callHold t callId reply).2.calls :=
  (send_setCall_calls rfl).imp id And.right

theorem callHangup_calls (t : Telephonyd) (callId : Int32) (reply reply' : Reply) :
    (callHangup t callId reply reply').2.calls = t.calls ∨
      t.calls.update callId (fun _ => none) = some (callHangup t callId reply reply').2.calls := by
  simp only [callHangup, Telephonyd.send]
  cases h : t.calls.update callId fun _ => none with
  | none => exact .inl rfl
  | some calls => exact .inr rfl

theorem dataConnect_calls (t : Telephonyd) (apn : List UInt8) (reply₁ reply₂ reply₃ : Reply) :
    (dataConnect t apn reply₁ reply₂ reply₃).2.calls = t.calls := by
  by_cases ha : t.airplaneMode = true
  · simp only [dataConnect, ha, if_true]
  · by_cases hd : t.data.active = true
    · simp only [dataConnect, ha, hd, if_true, Bool.false_eq_true, if_false]
    · rcases modemSendAt_eq t.modemFd reply₁ with h₁ | h₁ <;>
        rcases modemSendAt_eq t.modemFd reply₂ with h₂ | h₂ <;>
          simp [dataConnect, ha, hd, Telephonyd.send, h₁, h₂]

theorem dataDisconnect_calls (t : Telephonyd) (reply : Reply) :
    (dataDisconnect t reply).2.calls = t.calls := by
  by_cases hd : t.data.active = false <;> simp [dataDisconnect, hd, Telephonyd.send]

theorem networkSetAirplane_calls (t : Telephonyd) (enabled : Bool) (reply₁ reply₂ reply₃ : Reply) :
    (networkSetAirplane t enabled reply₁ reply₂ reply₃).2.calls = t.calls := by
  cases enabled with
  | true => rfl
  | false =>
      rcases modemSendAt_eq t.modemFd reply₂ with h₂ | h₂ <;>
        rcases modemSendAt_eq t.modemFd reply₃ with h₃ | h₃ <;>
          simp [networkSetAirplane, networkRegister, Telephonyd.send, h₂, h₃]

/-- **What a step does to the table.** -/
theorem Step.calls (h : Step t op t') :
    t'.calls = t.calls ∨
    (∃ number reply, op = .originate (some number) reply ∧ Dials t number reply ∧
      t'.calls = t.calls.dial number) ∨
    (∃ callId reply, op = .answer callId reply ∧ Accepts t reply ∧
      t.calls.update callId (fun c => some { c with state := .active }) = some t'.calls) ∨
    (∃ callId, t.calls.update callId (fun c => some { c with state := .held }) = some t'.calls) ∨
    ∃ callId, t.calls.update callId (fun _ => none) = some t'.calls := by
  subst h
  cases op with
  | originate number reply =>
      by_cases hd : ∃ n, number = some n ∧ Dials t n reply
      · obtain ⟨n, rfl, hd⟩ := hd
        exact .inr (.inl ⟨n, reply, rfl, hd, (callOriginate_dials hd).2⟩)
      · exact .inl (callOriginate_of_not fun n hn hd' => hd ⟨n, hn, hd'⟩).2
  | answer callId reply =>
      exact (callAnswer_calls t callId reply).imp id
        fun ⟨ha, h⟩ => .inr (.inl ⟨callId, reply, rfl, ha, h⟩)
  | hold callId reply =>
      exact (callHold_calls t callId reply).imp id fun h => .inr (.inr (.inl ⟨callId, h⟩))
  | hangup callId reply reply' =>
      exact (callHangup_calls t callId reply reply').imp id fun h => .inr (.inr (.inr ⟨callId, h⟩))
  | connect apn reply₁ reply₂ reply₃ => exact .inl (dataConnect_calls t apn reply₁ reply₂ reply₃)
  | disconnect reply => exact .inl (dataDisconnect_calls t reply)
  | airplane enabled reply₁ reply₂ reply₃ =>
      exact .inl (networkSetAirplane_calls t enabled reply₁ reply₂ reply₃)

end

/-! ### Ids -/

namespace CallTable

variable {table table' : CallTable} {callId : Int32} {number : List UInt8}

def ids (table : CallTable) : List Int32 := table.list.map (·.callId)

/-- The ids are distinct. -/
def Distinct (table : CallTable) : Prop := table.ids.Nodup

theorem update_eq_some {f : Call → Option Call} (h : table.update callId f = some table') :
    ∃ pre c post, table.list = pre ++ c :: post ∧ c.callId = callId ∧
      table'.list = pre ++ (f c).toList ++ post := by
  simp only [update] at h
  split at h
  · cases h
  · rename_i cs hcs
    cases h
    obtain ⟨pre, c, post, e, hc, -, rfl⟩ := atCall_eq_some.mp hcs
    exact ⟨pre, c, post, e, hc, rfl⟩

/-- The update of the first call with the id. -/
theorem update_append {f : Call → Option Call} {pre post : List Call} {c : Call}
    (hlist : table.list = pre ++ c :: post) (hpre : ∀ d ∈ pre, d.callId ≠ callId)
    (hc : c.callId = callId) :
    ∃ table', table.update callId f = some table' ∧ table'.list = pre ++ (f c).toList ++ post := by
  have hat : atCall callId f table.list = some (pre ++ (f c).toList ++ post) :=
    atCall_eq_some.mpr ⟨pre, c, post, hlist, hc, hpre, rfl⟩
  simp only [update]
  split
  · rename_i hnone
    cases hnone.symm.trans hat
  · rename_i cs hcs
    cases hcs.symm.trans hat
    exact ⟨_, rfl, rfl⟩

theorem update_eq_none {f : Call → Option Call} (h : ∀ c ∈ table.list, c.callId ≠ callId) :
    table.update callId f = none := by
  cases hupdate : table.update callId f with
  | none => rfl
  | some table' =>
      obtain ⟨pre, c, post, hlist, hc, -⟩ := update_eq_some hupdate
      exact absurd hc (h c (hlist ▸ List.mem_append_right _ List.mem_cons_self))

/-- No call has the id, or one is the first that has it. -/
theorem first_or (callId : Int32) (cs : List Call) : (∀ c ∈ cs, c.callId ≠ callId) ∨
    ∃ pre c post, cs = pre ++ c :: post ∧ (∀ d ∈ pre, d.callId ≠ callId) ∧ c.callId = callId := by
  cases hfind : cs.find? fun c => decide (c.callId = callId) with
  | none => exact .inl (by simpa using List.find?_eq_none.mp hfind)
  | some c =>
      obtain ⟨hc, pre, post, hlist, hpre⟩ := List.find?_eq_some_iff_append.mp hfind
      exact .inr ⟨pre, c, post, hlist, by simpa using hpre, by simpa using hc⟩

/-- An update that keeps the call's id, or drops the call, leaves the ids distinct. -/
theorem Distinct.update {f : Call → Option Call} (hf : ∀ c d, f c = some d → d.callId = c.callId)
    (h : table.update callId f = some table') (hd : table.Distinct) : table'.Distinct := by
  obtain ⟨pre, c, post, e, -, e'⟩ := update_eq_some h
  have hsub : ((f c).toList.map (·.callId)).Sublist [c.callId] := by
    cases hc : f c with
    | none => exact List.nil_sublist _
    | some d => rw [← hf c d hc]; exact List.Sublist.refl _
  have hids : table.ids = pre.map (·.callId) ++ ([c.callId] ++ post.map (·.callId)) := by
    rw [ids, e]
    simp
  have hids' : table'.ids =
      pre.map (·.callId) ++ ((f c).toList.map (·.callId) ++ post.map (·.callId)) := by
    rw [ids, e']
    simp
  rw [Distinct, hids] at hd
  rw [Distinct, hids']
  exact hd.sublist ((List.Sublist.refl _).append (hsub.append (List.Sublist.refl _)))

/-- There is room for a call, and the id it would get is not in use. -/
def Free (table : CallTable) : Prop :=
  table.list.length < maxCalls ∧ Int32.ofNat (table.list.length + 1) ∉ table.ids

instance (table : CallTable) : Decidable table.Free := inferInstanceAs (Decidable (_ ∧ _))

/-- The call `call_originate` adds. -/
def newCall (table : CallTable) (number : List UInt8) : Call where
  state := .dialing
  number := .cut CStr.pos_32 number
  callId := Int32.ofNat (table.list.length + 1)
  multiparty := false

theorem dial_list (h : table.list.length < maxCalls) :
    (table.dial number).list = table.list ++ [table.newCall number] := by
  simp only [dial, dif_pos h, newCall]

theorem dial_full (h : ¬ table.list.length < maxCalls) : table.dial number = table := by
  simp only [dial, dif_neg h]

theorem toInt_ofNat {n : Nat} (h : n ≤ maxCalls) : (Int32.ofNat n).toInt = n := by
  have : ∀ n ≤ 8, (Int32.ofNat n).toInt = n := by decide
  exact this n h

end CallTable

/-! ### Along a run -/

/-- What `call_originate` says is true: an answer that is not negative is the id of the call it has
added, which is dialing that number. -/
def Op.Truthful (t : Telephonyd) : Op → Prop
  | .originate number reply =>
      0 ≤ (callOriginate t number reply).1 →
        ∃ n c, number = some n ∧ (callOriginate t number reply).2.calls.list = t.calls.list ++ [c] ∧
          c.callId.toInt = (callOriginate t number reply).1 ∧ c.state = .dialing ∧
          c.number = .cut CStr.pos_32 n
  | _ => True

section

variable {t t' : Telephonyd} {number : List UInt8} {reply : Reply} {op : Op} {ops : List Op}

theorem truthful_of_free (h : ∀ n reply, op = .originate (some n) reply → Dials t n reply →
    t.calls.Free) : op.Truthful t := by
  cases op with
  | originate number reply =>
      intro hret
      by_cases hd : ∃ n, number = some n ∧ Dials t n reply
      · obtain ⟨n, rfl, hd⟩ := hd
        obtain ⟨hr, hc⟩ := callOriginate_dials hd
        have hroom := (h n reply rfl hd).1
        refine ⟨n, t.calls.newCall n, rfl, ?_, ?_, rfl, rfl⟩
        · rw [hc, CallTable.dial_list hroom]
        · rw [hr, CallTable.dial_list hroom, List.length_append]
          exact CallTable.toInt_ofNat hroom
      · rw [(callOriginate_of_not fun n hn hd' => hd ⟨n, hn, hd'⟩).1] at hret
        exact absurd hret (by decide)
  | _ => trivial

/-- A step keeps the ids distinct, if it dials no id in use. -/
theorem Step.distinct (hs : Step t op t') (h : t.calls.Distinct)
    (hfree : ∀ n reply, op = .originate (some n) reply → Dials t n reply → t.calls.Free) :
    t'.calls.Distinct := by
  rcases hs.calls with e | ⟨n, reply, rfl, hd, e⟩ | ⟨callId, reply, -, -, e⟩ | ⟨callId, e⟩ | ⟨callId, e⟩
  · rw [e]
    exact h
  · obtain ⟨hroom, hid⟩ := hfree n reply rfl hd
    have hids : t'.calls.ids = t.calls.ids ++ [Int32.ofNat (t.calls.list.length + 1)] := by
      rw [e, CallTable.ids, CallTable.dial_list hroom, List.map_append]
      rfl
    rw [CallTable.Distinct, hids]
    exact List.nodup_append.mpr ⟨h, List.nodup_singleton _, fun a ha b hb e => by
      rw [e, List.mem_singleton.mp hb] at ha
      exact hid ha⟩
  · exact h.update (by rintro c d ⟨⟩; rfl) e
  · exact h.update (by rintro c d ⟨⟩; rfl) e
  · exact h.update (by rintro c d ⟨⟩) e

/-- An originate that is truthful and leaves the ids distinct had a free id. -/
theorem free_of_truthful (hd : Dials t number reply)
    (ht : (Op.originate (some number) reply).Truthful t)
    (hdist : (callOriginate t (some number) reply).2.calls.Distinct) : t.calls.Free := by
  obtain ⟨hr, hc⟩ := callOriginate_dials hd
  have hret : 0 ≤ (callOriginate t (some number) reply).1 := by
    rw [hr]
    exact Int.natCast_nonneg _
  obtain ⟨-, c, -, hlist, -⟩ := ht hret
  have hroom : t.calls.list.length < maxCalls := by
    by_contra hfull
    rw [hc, CallTable.dial_full hfull] at hlist
    exact absurd (congrArg List.length hlist) (by simp)
  refine ⟨hroom, fun hm => ?_⟩
  rw [hc, CallTable.Distinct, CallTable.ids, CallTable.dial_list hroom, List.map_append] at hdist
  exact (List.nodup_append.mp hdist).2.2 _ hm _ (List.mem_singleton.mpr rfl) rfl

/-- **The ids of calls.**  Along a run from an empty table the ids in the table stay distinct, and
`call_originate` tells the truth, exactly when each dialling finds a table with room in which the next
id is free. -/
theorem calls_distinct_iff (h₀ : t.calls.list = []) :
    ((∀ t₁, Passes Step t ops t₁ → t₁.calls.Distinct) ∧
      ∀ t₁ op t₂, Takes Step t ops t₁ op t₂ → op.Truthful t₁) ↔
    ∀ t₁ number reply t₂, Takes Step t ops t₁ (.originate (some number) reply) t₂ →
      Dials t₁ number reply → t₁.calls.Free := by
  constructor
  · rintro ⟨hdist, htrue⟩ t₁ number reply t₂ htake hd
    have hrel : (callOriginate t₁ (some number) reply).2 = t₂ := htake.rel
    exact free_of_truthful hd (htrue _ _ _ htake) (hrel ▸ hdist t₂ htake.target)
  · intro hfree
    constructor
    · intro t₁ hpass
      refine hpass.induction (P := fun t => t.calls.Distinct) ?_ ?_
      · rw [CallTable.Distinct, CallTable.ids, h₀]
        exact List.nodup_nil
      · intro t₁ op t₂ htake h
        exact htake.rel.distinct h fun n reply e hd => hfree t₁ n reply t₂ (e ▸ htake) hd
    · intro t₁ op t₂ htake
      exact truthful_of_free fun n reply e hd => hfree t₁ n reply t₂ (e ▸ htake) hd

end

/-- A modem that agrees. -/
def Reply.ok : Reply where
  written := true
  reads := [ascii "OK"]

/-- telephonyd with a modem, before any call. -/
def idle : Telephonyd where
  modemFd := 3
  signalTech := .unknown
  regState := .notRegistered
  calls := .empty
  data := ⟨false, .cut CStr.pos_64 [], .cut CStr.pos_16 [], .unknown, 0, 0⟩
  airplaneMode := false
  sent := []

def dial (number : String) : Op := .originate (some (ascii number)) .ok

/-- Three calls, the last of which ends, and a fourth. -/
def callBack : List Op :=
  [dial "10086", dial "10010", dial "10000", .hangup 3 .ok .ok, dial "10011"]

theorem calls_distinct_iff_callBack :
    (∀ t₁, Passes Step idle callBack t₁ → t₁.calls.Distinct) ∧
      ∀ t₁ op t₂, Takes Step idle callBack t₁ op t₂ → op.Truthful t₁ := by
  refine (calls_distinct_iff rfl).mpr fun t₁ number reply t₂ htake _ => ?_
  simp only [callBack, Takes.cons_iff, Step, exists_eq_left', Takes.not_nil, or_false] at htake
  rcases htake with ⟨rfl, -⟩ | ⟨rfl, -⟩ | ⟨rfl, -⟩ | ⟨-, ⟨⟩, -⟩ | ⟨rfl, -⟩
  all_goals decide +kernel

/-- Two calls, the first of which ends, and a third. -/
def redial : List Op := [dial "10086", dial "10010", .hangup 1 .ok .ok, dial "10000"]

/-- The third call gets the id of the second. -/
theorem redial_not_distinct :
    ¬ ∀ t ops, t.calls.list = [] →
      (∀ t₁, Passes Step t ops t₁ → t₁.calls.Distinct) ∧
        ∀ t₁ op t₂, Takes Step t ops t₁ op t₂ → op.Truthful t₁ := by
  intro h
  have hpass : Passes Step idle redial (exec redial idle) := ⟨redial, [], by simp, run_exec redial idle⟩
  have hids : (exec redial idle).calls.ids = [2, 2] := by decide
  have hd := (h idle redial rfl).1 _ hpass
  rw [CallTable.Distinct, hids] at hd
  exact absurd hd (by decide)

end LumiOS.Telephony
