import Mathlib.Data.List.Chain
import LumiOS.Telephony.Calls
import LumiOS.Telephony.CommandLine

/-!
# Telephony — Shutdown

`telephonyd_shutdown` goes through the table by index while `call_hangup` takes calls out of it, so that
the call behind one that was hung up is passed over.  Each call that is up is hung up exactly when no two
neighbours in the table are (`shutdown_sound_iff`).
-/

namespace LumiOS.Telephony

open Support

/-! ### telephonyd.c -/

/-- `TCALL_ACTIVE` or `TCALL_DIALING`. -/
def Call.Up (c : Call) : Prop := c.state = .active ∨ c.state = .dialing

instance (c : Call) : Decidable c.Up := inferInstanceAs (Decidable (_ ∨ _))

/-- The loop of `telephonyd_shutdown`, from `i` on; the modem's replies are those for the call at each
index.  The table only shrinks, so as many rounds as it had calls are enough. -/
def hangupLoop (replies : Nat → Reply × Reply) : Nat → Nat → Telephonyd → Telephonyd
  | 0, _, t => t
  | rounds + 1, i, t =>
    match t.calls.list[i]? with
    | none => t
    | some c =>
      let t := if c.Up then (callHangup t c.callId (replies i).1 (replies i).2).2 else t
      hangupLoop replies rounds (i + 1) t

def modemClose (t : Telephonyd) : Telephonyd :=
  if 0 ≤ t.modemFd then { t with modemFd := -1 } else t

def telephonydShutdown (t : Telephonyd) (replies : Nat → Reply × Reply) (reply : Reply) : Telephonyd :=
  let t := hangupLoop replies t.calls.list.length 0 t
  let t := if t.data.active then (dataDisconnect t reply).2 else t
  modemClose t

/-! ### What is hung up -/

/-- The line that hangs up a call. -/
def hangupCommand (callId : Int32) : List UInt8 :=
  snprintf 32 (ascii "AT+CHLD=1" ++ printInt callId)

/-- No call is left up, and the modem was told to hang up each that was. -/
structure ShutsDown (t t' : Telephonyd) : Prop where
  none_up : ∀ c ∈ t'.calls.list, ¬ c.Up
  told : ∀ c ∈ t.calls.list, c.Up → commandBytes (hangupCommand c.callId) ∈ t.linesSince t'

/-- The calls the loop leaves in the table. -/
def leftOver : List Call → List Call
  | [] => []
  | [c] => if c.Up then [] else [c]
  | c :: d :: cs => if c.Up then d :: leftOver cs else c :: leftOver (d :: cs)

/-- The calls it hangs up. -/
def hungUp : List Call → List Call
  | [] => []
  | [c] => if c.Up then [c] else []
  | c :: d :: cs => if c.Up then c :: hungUp cs else hungUp (d :: cs)

/-- No two neighbours are up. -/
def Apart (cs : List Call) : Prop := cs.IsChain fun c d => ¬ (c.Up ∧ d.Up)

section

variable {t t' : Telephonyd} {pre cs : List Call} {c d : Call} {replies : Nat → Reply × Reply}
  {rounds : Nat}

theorem apart_cons_of_not (h : ¬ c.Up) : Apart (c :: cs) ↔ Apart cs := by
  cases cs with
  | nil => exact iff_of_true (.singleton _) .nil
  | cons d cs => exact List.isChain_cons_cons.trans (and_iff_right fun hup => h hup.1)

theorem apart_cons_cons_of_up (h : c.Up) : Apart (c :: d :: cs) ↔ ¬ d.Up ∧ Apart cs := by
  rw [Apart, List.isChain_cons_cons, not_and, forall_prop_of_true h]
  exact and_congr_right apart_cons_of_not

/-- **The loop leaves no call up** exactly when no two neighbours are. -/
theorem leftOver_iff (cs : List Call) : (∀ c ∈ leftOver cs, ¬ c.Up) ↔ Apart cs := by
  induction cs using leftOver.induct with
  | case1 => exact iff_of_true (fun c hc => by cases hc) .nil
  | case2 c hc =>
      rw [leftOver, if_pos hc]
      exact iff_of_true (fun c hc => by cases hc) (.singleton _)
  | case3 c hc =>
      rw [leftOver, if_neg hc]
      exact iff_of_true (fun d hd => List.mem_singleton.mp hd ▸ hc) (.singleton _)
  | case4 c d cs hc ih => rw [leftOver, if_pos hc, List.forall_mem_cons, ih, apart_cons_cons_of_up hc]
  | case5 c d cs hc ih =>
      rw [leftOver, if_neg hc, List.forall_mem_cons, ih, apart_cons_of_not hc, and_iff_right hc]

theorem mem_hungUp (h : Apart cs) (hc : c ∈ cs) (hup : c.Up) : c ∈ hungUp cs := by
  induction cs using hungUp.induct with
  | case1 => cases hc
  | case2 d hd => rwa [hungUp, if_pos hd]
  | case3 d hd => exact absurd (List.mem_singleton.mp hc ▸ hup) hd
  | case4 d e cs hd ih =>
      obtain ⟨he, h⟩ := (apart_cons_cons_of_up hd).mp h
      rw [hungUp, if_pos hd]
      rcases List.mem_cons.mp hc with rfl | hc
      · exact List.mem_cons_self
      · rcases List.mem_cons.mp hc with rfl | hc
        · exact absurd hup he
        · exact List.mem_cons_of_mem _ (ih h hc)
  | case5 d e cs hd ih =>
      rw [hungUp, if_neg hd]
      rcases List.mem_cons.mp hc with rfl | hc
      · exact absurd hup hd
      · exact ih ((apart_cons_of_not hd).mp h) hc

/-! ### The loop -/

/-- Between two states, the modem is told to hang up these calls. -/
def Tells (t t' : Telephonyd) (cs : List Call) : Prop :=
  ∃ new, t'.sent = new ++ t.sent ∧ ∀ c ∈ cs, ∃ ret, (hangupCommand c.callId, ret) ∈ new

theorem Tells.of_sent {new : List (List UInt8 × Int)} (h : t'.sent = new ++ t.sent) : Tells t t' [] :=
  ⟨new, h, fun c hc => by cases hc⟩

theorem Tells.trans {t'' : Telephonyd} {ds : List Call} (h : Tells t t' cs) (h' : Tells t' t'' ds) :
    Tells t t'' (cs ++ ds) := by
  obtain ⟨new, hs, hnew⟩ := h
  obtain ⟨new', hs', hnew'⟩ := h'
  refine ⟨new' ++ new, by rw [hs', hs, List.append_assoc], fun c hc => ?_⟩
  rcases List.mem_append.mp hc with hc | hc
  · obtain ⟨ret, hret⟩ := hnew c hc
    exact ⟨ret, List.mem_append_right _ hret⟩
  · obtain ⟨ret, hret⟩ := hnew' c hc
    exact ⟨ret, List.mem_append_left _ hret⟩

/-- A call that is hung up by its id is the one with the id. -/
theorem callHangup_distinct (hlist : t.calls.list = pre ++ c :: cs) (hdist : t.calls.Distinct)
    (reply reply' : Reply) :
    (callHangup t c.callId reply reply').2.calls.list = pre ++ cs ∧
      (callHangup t c.callId reply reply').2.calls.Distinct ∧
      Tells t (callHangup t c.callId reply reply').2 [c] := by
  have hids : t.calls.ids = pre.map (·.callId) ++ c.callId :: cs.map (·.callId) := by
    rw [CallTable.ids, hlist, List.map_append, List.map_cons]
  have hpre : ∀ d ∈ pre, d.callId ≠ c.callId := by
    rw [CallTable.Distinct, hids] at hdist
    intro d hd
    exact (List.nodup_append.mp hdist).2.2 _ (List.mem_map_of_mem hd) _ List.mem_cons_self
  obtain ⟨table, hupdate, htable⟩ : ∃ table, t.calls.update c.callId (fun _ => none) = some table ∧
      table.list = pre ++ [] ++ cs := CallTable.update_append hlist hpre rfl
  have hdist' : table.Distinct := hdist.update (by rintro c d ⟨⟩) hupdate
  simp only [callHangup, Telephonyd.send, hupdate]
  refine ⟨by rw [htable, List.append_nil], hdist', [_, _], rfl, fun d hd => ?_⟩
  rw [List.mem_singleton.mp hd]
  exact ⟨_, List.mem_cons_of_mem _ List.mem_cons_self⟩

theorem hangupLoop_end {i : Nat} (h : t.calls.list.length ≤ i) : hangupLoop replies rounds i t = t := by
  cases rounds with
  | zero => rfl
  | succ rounds => rw [hangupLoop, List.getElem?_eq_none h]

/-- **The loop**, with the calls still in front of it. -/
theorem hangupLoop_eq (replies : Nat → Reply × Reply) (hlist : t.calls.list = pre ++ cs)
    (hdist : t.calls.Distinct) (hrounds : cs.length ≤ rounds) :
    (hangupLoop replies rounds pre.length t).calls.list = pre ++ leftOver cs ∧
      Tells t (hangupLoop replies rounds pre.length t) (hungUp cs) := by
  induction rounds generalizing t pre cs with
  | zero =>
      obtain rfl := List.length_eq_zero_iff.mp (Nat.le_zero.mp hrounds)
      exact ⟨hlist, .of_sent (List.nil_append _).symm⟩
  | succ rounds ih =>
      cases cs with
      | nil =>
          rw [hangupLoop_end (by rw [hlist, List.append_nil])]
          exact ⟨hlist, .of_sent (List.nil_append _).symm⟩
      | cons c cs =>
          have hget : t.calls.list[pre.length]? = some c := by simp [hlist]
          have hnext : ∀ d : Call, pre.length + 1 = (pre ++ [d]).length := fun d => by simp
          simp only [hangupLoop, hget]
          by_cases hup : c.Up
          · obtain ⟨hlist', hdist', hsent⟩ :=
              callHangup_distinct hlist hdist (replies pre.length).1 (replies pre.length).2
            rw [if_pos hup]
            cases cs with
            | nil =>
                rw [hangupLoop_end (by rw [hlist', List.append_nil]; exact Nat.le_succ _), leftOver, hungUp,
                  if_pos hup, if_pos hup]
                exact ⟨hlist', hsent⟩
            | cons d cs =>
                -- the next call has moved to the index of this one
                have hlist'' := hlist'.trans (List.append_cons pre d cs)
                obtain ⟨hloop, hsent'⟩ := ih hlist'' hdist' (by simp only [List.length_cons] at hrounds; omega)
                rw [hnext d, leftOver, hungUp, if_pos hup, if_pos hup]
                exact ⟨by rw [hloop, List.append_assoc]; rfl, hsent.trans hsent'⟩
          · rw [if_neg hup, hnext c]
            obtain ⟨hloop, hsent⟩ := ih (hlist.trans (List.append_cons pre c cs)) hdist
              (Nat.le_of_succ_le_succ hrounds)
            have hskip : leftOver (c :: cs) = c :: leftOver cs ∧ hungUp (c :: cs) = hungUp cs := by
              cases cs with
              | nil => simp [leftOver, hungUp, hup]
              | cons d cs => simp [leftOver, hungUp, hup]
            rw [hskip.1, hskip.2]
            exact ⟨by rw [hloop, List.append_assoc]; rfl, hsent⟩

theorem modemClose_calls (t : Telephonyd) :
    (modemClose t).calls = t.calls ∧ (modemClose t).sent = t.sent := by
  rw [modemClose]
  split <;> exact ⟨rfl, rfl⟩

theorem dataDisconnect_tells (t : Telephonyd) (reply : Reply) : Tells t (dataDisconnect t reply).2 [] := by
  rw [dataDisconnect]
  split
  · exact .of_sent (List.nil_append _).symm
  · exact .of_sent List.singleton_append.symm

/-- Ending the connection and closing the modem leave the calls alone. -/
theorem telephonydShutdown_eq (t : Telephonyd) (replies : Nat → Reply × Reply) (reply : Reply)
    (hdist : t.calls.Distinct) :
    (telephonydShutdown t replies reply).calls.list = leftOver t.calls.list ∧
      Tells t (telephonydShutdown t replies reply) (hungUp t.calls.list) := by
  have hlist : t.calls.list = [] ++ t.calls.list := rfl
  obtain ⟨hloop, htells⟩ := hangupLoop_eq replies hlist hdist (Nat.le_refl _)
  simp only [telephonydShutdown]
  set t₁ := hangupLoop replies t.calls.list.length 0 t
  have hend : ∃ t₂, (if t₁.data.active = true then (dataDisconnect t₁ reply).2 else t₁) = t₂ ∧
      t₂.calls = t₁.calls ∧ Tells t₁ t₂ [] := by
    refine ⟨_, rfl, ?_⟩
    split
    · exact ⟨dataDisconnect_calls t₁ reply, dataDisconnect_tells t₁ reply⟩
    · exact ⟨rfl, .of_sent (List.nil_append _).symm⟩
  obtain ⟨t₂, ht₂, hcalls, htells₂⟩ := hend
  rw [ht₂, (modemClose_calls t₂).1, hcalls]
  refine ⟨hloop, ?_⟩
  have hall := htells.trans htells₂
  rw [List.append_nil] at hall
  rwa [Tells, (modemClose_calls t₂).2]

theorem mem_linesSince {cmd : List UInt8} {ret : Int} {new : List (List UInt8 × Int)}
    (hfd : 0 ≤ t.modemFd) (hs : t'.sent = new ++ t.sent) (hm : (cmd, ret) ∈ new) :
    commandBytes cmd ∈ t.linesSince t' := by
  have hnew : t'.sent.take (t'.sent.length - t.sent.length) = new := by
    rw [hs, List.length_append, Nat.add_sub_cancel, List.take_left]
  rw [Telephonyd.linesSince, if_neg (Int.not_lt.mpr hfd), hnew]
  exact List.mem_map.mpr ⟨(cmd, ret), List.mem_reverse.mpr hm, rfl⟩

end

/-- **Every call that is up is hung up** exactly when there is a modem, unless none is, and no two neighbours
in the table are up. -/
theorem shutdown_sound_iff (t : Telephonyd) (replies : Nat → Reply × Reply) (reply : Reply)
    (hdist : t.calls.Distinct) :
    ShutsDown t (telephonydShutdown t replies reply) ↔
      (0 ≤ t.modemFd ∨ ∀ c ∈ t.calls.list, ¬ c.Up) ∧ Apart t.calls.list := by
  obtain ⟨hlist, new, hs, hnew⟩ := telephonydShutdown_eq t replies reply hdist
  constructor
  · intro h
    refine ⟨?_, (leftOver_iff _).mp (hlist ▸ h.none_up)⟩
    by_contra hno
    obtain ⟨hfd, hup⟩ := not_or.mp hno
    have hnone : t.linesSince (telephonydShutdown t replies reply) = [] :=
      if_pos (Int.not_le.mp hfd)
    exact hup fun c hc hup => by
      have htold := h.told c hc hup
      rw [hnone] at htold
      cases htold
  · rintro ⟨hmodem, hapart⟩
    refine ⟨hlist ▸ (leftOver_iff _).mpr hapart, fun c hc hup => ?_⟩
    have hfd : 0 ≤ t.modemFd := hmodem.resolve_right fun hnone => hnone c hc hup
    obtain ⟨ret, hret⟩ := hnew c (mem_hungUp hapart hc hup)
    exact mem_linesSince hfd hs hret

/-- Two calls, the second of which is on hold or not. -/
def talking (second : CallState) : Telephonyd where
  modemFd := 3
  signalTech := .lte
  regState := .home
  calls :=
    { list := [⟨.active, .cut CStr.pos_32 [], 1, false⟩, ⟨second, .cut CStr.pos_32 [], 2, false⟩]
      length_le := (by decide : 2 ≤ maxCalls) }
  data := ⟨false, .cut CStr.pos_64 [], .cut CStr.pos_16 [], .unknown, 0, 0⟩
  airplaneMode := false
  sent := []

theorem talking_distinct (second : CallState) : (talking second).calls.Distinct := by
  have hids : (talking second).calls.ids = [1, 2] := rfl
  rw [CallTable.Distinct, hids]
  decide

theorem shutdown_sound_held :
    ShutsDown (talking .held) (telephonydShutdown (talking .held) (fun _ => (.ok, .ok)) .ok) :=
  (shutdown_sound_iff (talking .held) _ _ (talking_distinct .held)).mpr
    ⟨.inl (by decide), .cons_cons (by simp [Call.Up]) (.singleton _)⟩

/-- The second of two calls is passed over. -/
theorem shutdown_skips_call :
    ¬ ∀ (t : Telephonyd) (replies : Nat → Reply × Reply) (reply : Reply), t.calls.Distinct →
      ShutsDown t (telephonydShutdown t replies reply) := by
  intro h
  have hleft : (telephonydShutdown (talking .dialing) (fun _ => (.ok, .ok)) .ok).calls.list =
      [⟨.dialing, .cut CStr.pos_32 [], 2, false⟩] := by decide
  have hup := (h (talking .dialing) (fun _ => (.ok, .ok)) .ok (talking_distinct .dialing)).none_up
  rw [hleft] at hup
  exact hup _ List.mem_cons_self (.inr rfl)

end LumiOS.Telephony
