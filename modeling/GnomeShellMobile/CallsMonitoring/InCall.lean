import GnomeShellMobile.CallsMonitoring.Calls

/-!
# CallsMonitoring — the recorded calls decide `inCall`

* `Base`: the two maps of the manager, and the properties of the recorded proxies.
* `Inv`: with it, what the handlers of the manager keep.
* `run_inCall_iff`: the steps after which `Law` still holds are the careful ones.
-/

namespace CallsMonitoring

open State

variable {s t : State} {path : String} {proxy : CallProxy}

/-! ## Looking at the calls -/

section UpdateInCall

def State.anyInCall (s : State) : Bool := s.calls.any fun c => decide (IsInCall (s.state c))

theorem updateInCall_eq (s : State) :
    ∃ m, s.updateInCall = { s with inCall := s.anyInCall, monitoring := m } := by
  show ∃ m, (if s.inCall = s.anyInCall then s else _) = _
  split
  · next heq => exact ⟨s.monitoring, by rw [← heq]⟩
  · exact ⟨_, rfl⟩

theorem updateInCall_connected (s : State) : s.updateInCall.connected = s.connected := by
  obtain ⟨m, hm⟩ := updateInCall_eq s
  rw [hm]

theorem updateInCall_of_eq (h : s.inCall = s.anyInCall) : s.updateInCall = s := if_pos h

theorem onPropertiesChanged_of_eq (h : s.inCall = s.anyInCall) (props : List String) :
    s.onPropertiesChanged props = s := by
  induction props with
  | nil => rfl
  | cons prop props ih =>
    rw [State.onPropertiesChanged]
    split
    · rfl
    · rw [updateInCall_of_eq h]
      exact ih

theorem onPropertiesChanged_eq (s : State) (props : List String) :
    s.onPropertiesChanged props = if props.head? = some "State" then s.updateInCall else s := by
  cases props with
  | nil => rfl
  | cons prop props =>
    rw [State.onPropertiesChanged, List.head?_cons]
    by_cases hprop : prop = "State"
    · rw [if_neg (not_not.mpr hprop), if_pos (congrArg some hprop)]
      obtain ⟨m, hm⟩ := updateInCall_eq s
      exact onPropertiesChanged_of_eq (by rw [hm]; rfl) props
    · rw [if_pos hprop, if_neg fun h => hprop (Option.some.inj h)]

theorem foldl_onPropertiesChanged (l : List CallProxy) (props : List String) :
    l.foldl (fun s _ => s.onPropertiesChanged props) s =
      if l ≠ [] ∧ props.head? = some "State" then s.updateInCall else s := by
  induction l generalizing s with
  | nil => rfl
  | cons c l ih =>
    rw [List.foldl_cons, ih, onPropertiesChanged_eq]
    by_cases hhead : props.head? = some "State"
    · obtain ⟨m, hm⟩ := updateInCall_eq s
      have hstill : s.updateInCall.updateInCall = s.updateInCall :=
        updateInCall_of_eq (by rw [hm]; rfl)
      rw [if_pos hhead, hstill, ite_self]
      exact (if_pos ⟨List.cons_ne_nil c l, hhead⟩).symm
    · rw [if_neg hhead, if_neg fun h => hhead h.2, if_neg fun h => hhead h.2]

theorem propertiesChanged_eq (s : State) (path : String) (properties : Dict String ℕ) :
    s.propertiesChanged path properties =
      if s.Noticed path properties then (s.receive path properties).updateInCall
      else s.receive path properties := by
  rw [State.propertiesChanged, foldl_onPropertiesChanged]
  refine if_congr (and_congr_left' ?_) rfl rfl
  rw [ne_eq, List.filter_eq_nil_iff]
  simp

end UpdateInCall

/-! ## The handlers of the manager -/

section Handlers

theorem removeCall_frame (s : State) (proxy : CallProxy) :
    (s.removeCall proxy).objects = s.objects := by
  rw [State.removeCall]
  split
  · obtain ⟨m, hm⟩ := updateInCall_eq { s with calls := s.calls.erase proxy }
    rw [hm]
  · rfl

/-- Each handler records the call once more. Induction on the handlers. -/
theorem iterate_onObjectAdded (hpath : IsCallPath path) (hget : s.objects.get? path = some proxy)
    (k : ℕ) : ((onObjectAdded path)^[k] s).calls = s.calls ++ List.replicate k proxy ∧
      ((onObjectAdded path)^[k] s).objects = s.objects ∧
      ((onObjectAdded path)^[k] s).connected = s.connected := by
  induction k generalizing s with
  | zero => exact ⟨(List.append_nil _).symm, rfl, rfl⟩
  | succ k ih =>
    have hadd : onObjectAdded path s = s.addCall proxy := by
      rw [onObjectAdded, if_pos hpath, hget]
    obtain ⟨m, hm⟩ := updateInCall_eq
      { s with handled := s.handled ++ [proxy], calls := s.calls ++ [proxy] }
    rw [Function.iterate_succ_apply, hadd, State.addCall, hm]
    obtain ⟨hcalls, hobjects, hconnected⟩ := ih (s := { s with
      handled := s.handled ++ [proxy]
      calls := s.calls ++ [proxy]
      inCall := _
      monitoring := m }) hget
    refine ⟨hcalls.trans ?_, hobjects, hconnected⟩
    rw [List.append_assoc, List.replicate_succ]
    rfl

theorem iterate_onObjectRemoved (hpath : IsCallPath path)
    (hget : s.objects.get? path = some proxy) (honce : proxy ∉ s.calls.erase proxy) {k : ℕ}
    (hk : 0 < k) : (onObjectRemoved path)^[k] s = s.removeCall proxy := by
  have hremove : onObjectRemoved path s = s.removeCall proxy := by
    rw [onObjectRemoved, if_pos hpath, hget]
  have hgone : proxy ∉ (s.removeCall proxy).calls := by
    rw [State.removeCall]
    split
    · obtain ⟨m, hm⟩ := updateInCall_eq { s with calls := s.calls.erase proxy }
      rw [hm]
      exact honce
    · next hnot => exact hnot
  have hfixed : onObjectRemoved path (s.removeCall proxy) = s.removeCall proxy := by
    rw [onObjectRemoved, if_pos hpath, removeCall_frame, hget]
    show (s.removeCall proxy).removeCall proxy = _
    rw [State.removeCall, if_neg hgone]
  cases k with
  | zero => exact absurd hk (Nat.lt_irrefl 0)
  | succ k =>
    rw [Function.iterate_succ_apply, hremove]
    exact Function.iterate_fixed hfixed k

theorem iterate_onObjectRemoved_of_not (hget : s.objects.get? path = some proxy)
    (hnot : ¬ (IsCallPath path ∧ proxy ∈ s.calls)) (k : ℕ) : (onObjectRemoved path)^[k] s = s := by
  apply Function.iterate_fixed
  rw [onObjectRemoved]
  split
  · next hpath =>
    rw [hget]
    exact if_neg fun hmem => hnot ⟨hpath, hmem⟩
  · rfl

end Handlers

/-! ## The invariant -/

structure Base (s : State) : Prop where
  stored : ∀ path c, s.objects.get? path = some c → c.path = path ∧ c ∈ s.interfaces
  nodup : s.interfaces.Nodup
  fresh : ∀ c, c ∈ s.interfaces ∨ c ∈ s.calls → c.serial < s.serial
  agree : ∀ c ∈ s.calls, ∀ p, s.objects.get? c.path = some p → s.state c = s.state p

structure Inv (s : State) : Prop where
  base : Base s
  idle : s.connected = 0 → s.calls = [] ∧ s.inCall = false
  law : 0 < s.connected → Law s

theorem Inv.new : Inv State.new where
  base := by
    constructor
    · intro path c h
      cases h
    · exact List.nodup_nil
    · rintro c (h | h) <;> cases h
    · intro c h
      cases h
  idle _ := ⟨rfl, rfl⟩
  law h := absurd h (Nat.lt_irrefl 0)

theorem exists_of_records (h : s.records path = 1) : ∃ c ∈ s.calls, c.path = path := by
  have hpos : 0 < s.calls.countP (·.path = path) :=
    Nat.lt_of_lt_of_eq Nat.one_pos h.symm
  obtain ⟨c, hc, hpath⟩ := List.countP_pos_iff.mp hpos
  exact ⟨c, hc, of_decide_eq_true hpath⟩

theorem eq_of_records {l : List CallProxy} {c d : CallProxy}
    (h : l.countP (·.path = path) = 1) (hc : c ∈ l) (hd : d ∈ l)
    (hcp : c.path = path) (hdp : d.path = path) : c = d := by
  rw [List.countP_eq_length_filter, List.length_eq_one_iff] at h
  obtain ⟨x, hx⟩ := h
  have hmem : ∀ e ∈ l, e.path = path → e = x := by
    intro e he hep
    have hfilter : e ∈ l.filter (·.path = path) := List.mem_filter.mpr ⟨he, decide_eq_true hep⟩
    rw [hx] at hfilter
    exact List.mem_singleton.mp hfilter
  exact (hmem c hc hcp).trans (hmem d hd hdp).symm

theorem Base.someInCall_iff (h : Base s) (honce : ∀ path, s.objects.has path → s.records path = 1)
    (hlive : ∀ c ∈ s.calls, s.objects.has c.path) : s.SomeInCall ↔ s.anyInCall = true := by
  rw [State.anyInCall, List.any_eq_true]
  constructor
  · rintro ⟨⟨path, p⟩, hmem, hin⟩
    have hget := Dict.get?_eq_some.mpr hmem
    obtain ⟨c, hc, rfl⟩ := exists_of_records (honce path (Dict.has_iff.mpr ⟨p, hget⟩))
    refine ⟨c, hc, decide_eq_true ?_⟩
    rw [h.agree c hc p hget]
    exact hin
  · rintro ⟨c, hc, hin⟩
    obtain ⟨p, hget⟩ := Dict.has_iff.mp (hlive c hc)
    refine ⟨(c.path, p), Dict.get?_eq_some.mp hget, ?_⟩
    show IsInCall (s.state p)
    rw [← h.agree c hc p hget]
    exact of_decide_eq_true hin

theorem Base.updateInCall (h : Base s) : Base s.updateInCall := by
  obtain ⟨m, hm⟩ := updateInCall_eq s
  rw [hm]
  exact ⟨h.stored, h.nodup, h.fresh, h.agree⟩

theorem Base.law_updateInCall (h : Base s) (honce : ∀ path, s.objects.has path → s.records path = 1)
    (hlive : ∀ c ∈ s.calls, s.objects.has c.path) : Law s.updateInCall := by
  obtain ⟨m, hm⟩ := updateInCall_eq s
  rw [hm]
  exact ⟨(h.someInCall_iff honce hlive).symm, honce, hlive⟩

/-! ## An object is added -/

/-- The state in which the handlers of `object-added` run. -/
def State.withProxy (s : State) (path : String) (state : ℕ) : State :=
  { s with
    objects := s.objects.set path ⟨path, s.serial⟩
    interfaces := s.interfaces ++ [⟨path, s.serial⟩]
    serial := s.serial + 1
    state := Function.update s.state ⟨path, s.serial⟩
      (((s.objects.get? path).map s.state).getD state) }

theorem addProxy_eq (s : State) (path : String) (state : ℕ) : s.addProxy path state =
      if s.objects.get? path = none then (onObjectAdded path)^[s.connected] (s.withProxy path state)
      else s.withProxy path state := rfl

theorem Base.ne_of_serial (h : Base s) (path : String) {c : CallProxy} (hc : c ∈ s.interfaces ∨ c ∈ s.calls) :
    c ≠ ⟨path, s.serial⟩ := by
  rintro rfl
  exact Nat.lt_irrefl _ (h.fresh _ hc)

theorem Base.withProxy (h : Base s) (state : ℕ)
    (hdead : s.objects.get? path = none → ∀ c ∈ s.calls, c.path ≠ path) :
    Base (s.withProxy path state) where
  stored path' c hget := by
    rcases Dict.mem_set.mp (Dict.get?_eq_some.mp hget) with ⟨rfl, rfl⟩ | ⟨-, hmem⟩
    · exact ⟨rfl, List.mem_append_right _ (List.mem_singleton_self _)⟩
    · obtain ⟨hpath, hmem⟩ := h.stored path' c (Dict.get?_eq_some.mpr hmem)
      exact ⟨hpath, List.mem_append_left _ hmem⟩
  nodup := List.nodup_append.mpr ⟨h.nodup, List.nodup_singleton _, fun c hc d hd heq =>
    h.ne_of_serial _ (.inl hc) (heq.trans (List.mem_singleton.mp hd))⟩
  fresh c hc := by
    show c.serial < s.serial + 1
    rcases hc with hc | hc
    · rcases List.mem_append.mp hc with hc | hc
      · exact Nat.lt_succ_of_lt (h.fresh c (.inl hc))
      · rw [List.mem_singleton.mp hc]
        exact Nat.lt_succ_self _
    · exact Nat.lt_succ_of_lt (h.fresh c (.inr hc))
  agree c hc p hget := by
    have hold : (s.withProxy path state).state c = s.state c :=
      Function.update_of_ne (h.ne_of_serial _ (.inr hc)) _ _
    rw [hold]
    rcases Dict.mem_set.mp (Dict.get?_eq_some.mp hget) with ⟨hpath, rfl⟩ | ⟨-, hmem⟩
    · -- the new proxy has the properties of the one it takes the place of
      show _ = Function.update s.state _ _ _
      rw [Function.update_self]
      cases hstored : s.objects.get? path with
      | none => exact absurd hpath (hdead hstored c hc)
      | some q => exact h.agree c hc q (hpath ▸ hstored)
    · have hget' := Dict.get?_eq_some.mpr hmem
      rw [h.agree c hc p hget']
      have hne := h.ne_of_serial path (.inl (h.stored c.path p hget').2)
      exact (Function.update_of_ne hne _ _).symm

theorem Inv.notMem_calls (h : Inv s) (hnone : s.objects.get? path = none) :
    ∀ c ∈ s.calls, c.path ≠ path := by
  intro c hc heq
  by_cases hconnected : s.connected = 0
  · rw [(h.idle hconnected).1] at hc
    cases hc
  · have hhas := (h.law (Nat.pos_of_ne_zero hconnected)).live c hc
    rw [heq] at hhas
    exact Dict.get?_eq_none.mp hnone hhas

theorem records_eq_zero (h : ∀ c ∈ s.calls, c.path ≠ path) : s.records path = 0 :=
  List.countP_eq_zero.mpr fun c hc => by simpa using h c hc

theorem Inv.withProxy_of_has (h : Inv s) {q : CallProxy} (state : ℕ)
    (hget : s.objects.get? path = some q) : Inv (s.withProxy path state) := by
  have hbase := h.base.withProxy state fun hnone => absurd (hget.symm.trans hnone) (by simp)
  refine ⟨hbase, h.idle, fun hconnected => ?_⟩
  have hlaw := h.law hconnected
  have hhas : ∀ path', (s.withProxy path state).objects.has path' ↔ s.objects.has path' := by
    intro path'
    rw [Dict.has_iff, Dict.has_iff]
    show (∃ v, (s.objects.set path _).get? path' = some v) ↔ _
    rw [Dict.get?_set]
    split
    · next heq => exact iff_of_true ⟨_, rfl⟩ ⟨q, heq ▸ hget⟩
    · exact Iff.rfl
  have honce : ∀ path', (s.withProxy path state).objects.has path' →
      (s.withProxy path state).records path' = 1 := fun path' h' => hlaw.once path' ((hhas _).mp h')
  have hlive : ∀ c ∈ s.calls, (s.withProxy path state).objects.has c.path :=
    fun c hc => (hhas _).mpr (hlaw.live c hc)
  refine ⟨?_, honce, hlive⟩
  -- the recorded proxies are the same, with the same properties
  have hany : (s.withProxy path state).anyInCall = s.anyInCall := by
    rw [State.anyInCall, State.anyInCall, Bool.eq_iff_iff, List.any_eq_true, List.any_eq_true]
    refine exists_congr fun c => and_congr_right fun hc => ?_
    rw [show (s.withProxy path state).state c = s.state c from
      Function.update_of_ne (h.base.ne_of_serial _ (.inr hc)) _ _]
  rw [hbase.someInCall_iff honce hlive, hany, ← h.base.someInCall_iff hlaw.once hlaw.live]
  exact hlaw.inCall

theorem withProxy_get? (s : State) (path : String) (state : ℕ) :
    (s.withProxy path state).objects.get? path = some ⟨path, s.serial⟩ := Dict.get?_set_self _ _ _

theorem withProxy_has (s : State) (path : String) (state : ℕ) {path' : String} :
    (s.withProxy path state).objects.has path' ↔ path' = path ∨ s.objects.has path' := by
  rw [Dict.has_iff, Dict.has_iff]
  show (∃ v, (s.objects.set path _).get? path' = some v) ↔ _
  rw [Dict.get?_set]
  split
  · next heq => exact iff_of_true ⟨_, rfl⟩ (.inl heq)
  · next hne => exact ⟨.inr, fun h' => h'.resolve_left hne⟩

theorem Inv.addProxy (h : Inv s) (state : ℕ)
    (hok : Careful s (.added path state)) : Inv (s.addProxy path state) := by
  rw [addProxy_eq]
  split
  · next hnone =>
    have hnot := h.notMem_calls hnone
    have hbase := h.base.withProxy state fun _ => hnot
    by_cases hconnected : s.connected = 0
    · rw [hconnected]
      exact ⟨hbase, h.idle, fun hpos => absurd hconnected (Nat.ne_of_gt hpos)⟩
    · obtain hhas | ⟨hpath, hone⟩ := hok (Nat.pos_of_ne_zero hconnected)
      · exact absurd hhas (Dict.get?_eq_none.mp hnone)
      · have hlaw := h.law (Nat.pos_of_ne_zero hconnected)
        have hadd : onObjectAdded path (s.withProxy path state) =
            (s.withProxy path state).addCall ⟨path, s.serial⟩ := by
          rw [onObjectAdded, if_pos hpath, withProxy_get?]
        rw [hone, Function.iterate_one, hadd, State.addCall]
        have hbase' : Base { s.withProxy path state with
            handled := s.handled ++ [⟨path, s.serial⟩]
            calls := s.calls ++ [⟨path, s.serial⟩] } := by
          refine ⟨hbase.stored, hbase.nodup, ?_, ?_⟩
          · intro c hc
            rcases hc with hc | hc
            · exact hbase.fresh c (.inl hc)
            · rcases List.mem_append.mp hc with hc | hc
              · exact hbase.fresh c (.inr hc)
              · rw [List.mem_singleton.mp hc]
                exact Nat.lt_succ_self s.serial
          · intro c hc p hget
            rcases List.mem_append.mp hc with hc | hc
            · exact hbase.agree c hc p hget
            · rw [List.mem_singleton.mp hc] at hget ⊢
              rw [Option.some.inj ((withProxy_get? s path state).symm.trans hget)]
        refine ⟨hbase'.updateInCall, ?_, fun _ => hbase'.law_updateInCall ?_ ?_⟩
        · intro hzero
          rw [updateInCall_connected] at hzero
          exact absurd hzero hconnected
        · intro path' hhas
          show (s.calls ++ [_]).countP _ = 1
          rw [List.countP_append, List.countP_singleton]
          rcases (withProxy_has s path state).mp hhas with rfl | hhas
          · rw [show s.calls.countP (·.path = path') = 0 from records_eq_zero hnot,
              if_pos (decide_eq_true rfl)]
          · have hne : path ≠ path' := by
              rintro rfl
              exact Dict.get?_eq_none.mp hnone hhas
            rw [show s.calls.countP (·.path = path') = 1 from hlaw.once path' hhas,
              if_neg (by simpa using hne)]
        · intro c hc
          rcases List.mem_append.mp hc with hc | hc
          · exact (withProxy_has s path state).mpr (.inr (hlaw.live c hc))
          · rw [List.mem_singleton.mp hc]
            exact (withProxy_has s path state).mpr (.inl rfl)
  · next hsome =>
    obtain ⟨q, hget⟩ := Option.ne_none_iff_exists'.mp hsome
    exact h.withProxy_of_has state hget

theorem careful_of_addProxy (h : Inv s) (state : ℕ)
    (hlaw : 0 < (s.addProxy path state).connected → Law (s.addProxy path state)) :
    Careful s (.added path state) := by
  intro hconnected
  rw [addProxy_eq] at hlaw
  split at hlaw
  · next hnone =>
    right
    have hzero := records_eq_zero (h.notMem_calls hnone)
    by_cases hpath : IsCallPath path
    · obtain ⟨hcalls, hobjects, hsame⟩ :=
        iterate_onObjectAdded hpath (withProxy_get? s path state) s.connected
      have honce := (hlaw (Nat.lt_of_lt_of_eq hconnected hsame.symm)).once path
        (hobjects ▸ (withProxy_has s path state).mpr (.inl rfl))
      rw [State.records, hcalls, List.countP_append, List.countP_replicate] at honce
      rw [show (s.withProxy path state).calls.countP (·.path = path) = 0 from hzero] at honce
      simp at honce
      exact ⟨hpath, honce⟩
    · have hid : onObjectAdded path (s.withProxy path state) = s.withProxy path state :=
        if_neg hpath
      rw [Function.iterate_fixed hid] at hlaw
      have honce := (hlaw hconnected).once path ((withProxy_has s path state).mpr (.inl rfl))
      exact absurd (hzero.symm.trans honce) (by decide)
  · next hsome =>
    left
    obtain ⟨q, hget⟩ := Option.ne_none_iff_exists'.mp hsome
    exact Dict.has_iff.mpr ⟨q, hget⟩

/-! ## An object is removed -/

theorem Base.erase (h : Base s) (hget : s.objects.get? path = some proxy) : Base { s with
      interfaces := s.interfaces.erase proxy
      objects := s.objects.erase path } where
  stored path' c hget' := by
    obtain ⟨hne, hmem⟩ := Dict.mem_erase.mp (Dict.get?_eq_some.mp hget')
    obtain ⟨hpath, hc⟩ := h.stored path' c (Dict.get?_eq_some.mpr hmem)
    refine ⟨hpath, (List.Nodup.mem_erase_iff h.nodup).mpr ⟨?_, hc⟩⟩
    rintro rfl
    exact hne (hpath.symm.trans (h.stored path c hget).1)
  nodup := h.nodup.erase proxy
  fresh c hc := h.fresh c (hc.imp_left List.mem_of_mem_erase)
  agree c hc p hget' :=
    h.agree c hc p (Dict.get?_eq_some.mpr (Dict.mem_erase.mp (Dict.get?_eq_some.mp hget')).2)

theorem has_erase {path' : String} :
    (s.objects.erase path).has path' ↔ path' ≠ path ∧ s.objects.has path' := by
  rw [Dict.has_iff, Dict.has_iff, Dict.get?_erase]
  split
  · next heq => exact iff_of_false (by simp) fun h => h.1 heq
  · next hne => exact ⟨fun h => ⟨hne, h⟩, And.right⟩

theorem Law.erase (h : Law s) (hstored : proxy.path = path) (hhas : s.objects.has path)
    (hmem : proxy ∈ s.calls) : (∀ c ∈ s.calls.erase proxy, c.path ≠ path) ∧
      ∀ path', path' ≠ path → (s.calls.erase proxy).countP (·.path = path') = s.records path' := by
  have hperm := List.perm_cons_erase hmem
  have hcount : ∀ path', s.records path' =
      (s.calls.erase proxy).countP (·.path = path') + if proxy.path = path' then 1 else 0 := by
    intro path'
    rw [State.records, hperm.countP_eq, List.countP_cons]
    simp
  constructor
  · have honce := h.once path hhas
    rw [hcount path, if_pos hstored] at honce
    have hzero : (s.calls.erase proxy).countP (·.path = path) = 0 := by omega
    intro c hc
    simpa using List.countP_eq_zero.mp hzero c hc
  · intro path' hne
    rw [hcount path', if_neg fun heq => hne (heq.symm.trans hstored)]
    omega

theorem removeProxy_eq (hget : s.objects.get? path = some proxy) : s.removeProxy path =
      { (onObjectRemoved path)^[s.connected] { s with interfaces := s.interfaces.erase proxy } with
        objects := ((onObjectRemoved path)^[s.connected]
          { s with interfaces := s.interfaces.erase proxy }).objects.erase path } := by
  rw [State.removeProxy, hget]

theorem Inv.removeProxy (h : Inv s) (hok : Careful s (.removed path)) :
    Inv (s.removeProxy path) := by
  cases hget : s.objects.get? path with
  | none =>
    rw [State.removeProxy, hget]
    exact h
  | some proxy =>
    have hbase := h.base.erase hget
    rw [removeProxy_eq hget]
    by_cases hconnected : s.connected = 0
    · have hnone : ∀ u : State, (onObjectRemoved path)^[s.connected] u = u := by
        intro u
        rw [hconnected]
        rfl
      rw [hnone]
      exact ⟨hbase, h.idle, fun hpos => absurd hconnected (Nat.ne_of_gt hpos)⟩
    · obtain ⟨hpath, hmem⟩ := hok (Nat.pos_of_ne_zero hconnected) proxy hget
      have hlaw := h.law (Nat.pos_of_ne_zero hconnected)
      obtain ⟨hgone, hrest⟩ := hlaw.erase (h.base.stored path proxy hget).1
        (Dict.has_iff.mpr ⟨proxy, hget⟩) hmem
      have hnot : proxy ∉ s.calls.erase proxy := fun hmem =>
        hgone proxy hmem (h.base.stored path proxy hget).1
      rw [iterate_onObjectRemoved (s := { s with interfaces := s.interfaces.erase proxy })
        hpath hget hnot (Nat.pos_of_ne_zero hconnected)]
      have hcall : ({ s with interfaces := s.interfaces.erase proxy } : State).removeCall proxy =
          { s with
            interfaces := s.interfaces.erase proxy
            calls := s.calls.erase proxy }.updateInCall := if_pos hmem
      obtain ⟨m, hm⟩ := updateInCall_eq { s with
        interfaces := s.interfaces.erase proxy
        calls := s.calls.erase proxy }
      rw [hcall, hm]
      have hcalls : Base { s with
          interfaces := s.interfaces.erase proxy
          objects := s.objects.erase path
          calls := s.calls.erase proxy } :=
        ⟨hbase.stored, hbase.nodup, fun c hc => hbase.fresh c (hc.imp_right List.mem_of_mem_erase),
          fun c hc => hbase.agree c (List.mem_of_mem_erase hc)⟩
      have honce : ∀ path', (s.objects.erase path).has path' →
          (s.calls.erase proxy).countP (·.path = path') = 1 := by
        intro path' hhas
        obtain ⟨hne, hhas⟩ := has_erase.mp hhas
        rw [hrest path' hne]
        exact hlaw.once path' hhas
      have hlive : ∀ c ∈ s.calls.erase proxy, (s.objects.erase path).has c.path := fun c hc =>
        has_erase.mpr ⟨hgone c hc, hlaw.live c (List.mem_of_mem_erase hc)⟩
      refine ⟨⟨hcalls.stored, hcalls.nodup, hcalls.fresh, hcalls.agree⟩,
        fun hzero => absurd hzero hconnected, fun _ => ⟨?_, honce, hlive⟩⟩
      exact (hcalls.someInCall_iff honce hlive).symm

theorem careful_of_removeProxy (h : Inv s)
    (hlaw : 0 < (s.removeProxy path).connected → Law (s.removeProxy path)) :
    Careful s (.removed path) := by
  intro hconnected proxy hget
  have hstored := (h.base.stored path proxy hget).1
  by_contra hnot
  rw [removeProxy_eq hget, iterate_onObjectRemoved_of_not
    (s := { s with interfaces := s.interfaces.erase proxy }) hget hnot] at hlaw
  -- its path stays recorded
  obtain ⟨c, hc, hpath⟩ :=
    exists_of_records ((h.law hconnected).once path (Dict.has_iff.mpr ⟨proxy, hget⟩))
  exact (has_erase.mp ((hlaw hconnected).live c hc)).1 hpath

/-! ## A property changes -/

theorem Base.receive (h : Base s) (path : String) (properties : Dict String ℕ) :
    Base (s.receive path properties) where
  __ := h
  agree c hc p hget := by
    have hold := h.agree c hc p hget
    have hpath := (h.stored c.path p hget).1
    show (if c.path = path then _ else _) = if p.path = path then _ else _
    rw [hpath, hold]

theorem Inv.propertiesChanged (h : Inv s) {properties : Dict String ℕ}
    (hok : Careful s (.propertiesChanged path properties)) :
    Inv (s.propertiesChanged path properties) := by
  have hbase := h.base.receive path properties
  rw [propertiesChanged_eq]
  by_cases hconnected : s.connected = 0
  · have hnot : s.anyInCall = false ∧ (s.receive path properties).anyInCall = false := by
      rw [State.anyInCall, State.anyInCall, (h.idle hconnected).1,
        show (s.receive path properties).calls = [] from (h.idle hconnected).1]
      exact ⟨rfl, rfl⟩
    have hsame : (s.receive path properties).updateInCall = s.receive path properties :=
      updateInCall_of_eq ((h.idle hconnected).2.trans hnot.2.symm)
    rw [hsame, ite_self]
    exact ⟨hbase, h.idle, fun hpos => absurd hconnected (Nat.ne_of_gt hpos)⟩
  · have hlaw := h.law (Nat.pos_of_ne_zero hconnected)
    split
    · refine ⟨hbase.updateInCall, ?_, fun _ => hbase.law_updateInCall hlaw.once hlaw.live⟩
      intro hzero
      rw [updateInCall_connected] at hzero
      exact absurd hzero hconnected
    · next hunnoticed =>
      have hsame := (hok (Nat.pos_of_ne_zero hconnected)).resolve_left hunnoticed
      exact ⟨hbase, h.idle, fun _ => ⟨hlaw.inCall.trans hsame.symm, hlaw.once, hlaw.live⟩⟩

theorem careful_of_propertiesChanged (h : Inv s) {properties : Dict String ℕ}
    (hlaw : 0 < (s.propertiesChanged path properties).connected →
      Law (s.propertiesChanged path properties)) :
    Careful s (.propertiesChanged path properties) := by
  intro hconnected
  rw [propertiesChanged_eq] at hlaw
  split at hlaw
  · next hnoticed => exact .inl hnoticed
  · exact .inr ((hlaw hconnected).inCall.symm.trans (h.law hconnected).inCall)

/-! ## A load is over -/

theorem onLoaded_eq (s : State) : ∃ m, s.onLoaded = { s with
      calls := s.calls ++ s.interfaces
      inCall := ({ s with calls := s.calls ++ s.interfaces } : State).anyInCall
      monitoring := m
      connected := s.connected + 1 } := by
  obtain ⟨m, hm⟩ := updateInCall_eq { s with calls := s.calls ++ s.interfaces }
  exact ⟨m, by rw [State.onLoaded, hm]⟩

theorem countP_eq_one (h : Base s) (hall : ∀ c ∈ s.interfaces, s.objects.get? c.path = some c)
    (hget : s.objects.get? path = some proxy) : s.interfaces.countP (·.path = path) = 1 := by
  obtain ⟨hpath, hmem⟩ := h.stored path proxy hget
  have hfilter : s.interfaces.filter (·.path = path) = s.interfaces.filter (· = proxy) := by
    apply List.filter_congr
    intro c hc
    refine decide_eq_decide.mpr ⟨fun hc' => ?_, fun hc' => hc' ▸ hpath⟩
    have hc'' := hall c hc
    rw [hc', hget] at hc''
    exact (Option.some.inj hc'').symm
  rw [List.countP_eq_length_filter, hfilter, ← List.countP_eq_length_filter]
  have hone := List.count_eq_one_of_mem h.nodup hmem
  rw [← hone, List.count]
  congr 1

theorem Inv.onLoaded (h : Inv s) (hok : Careful s .loaded) : Inv s.onLoaded := by
  obtain ⟨m, hm⟩ := onLoaded_eq s
  rw [hm]
  by_cases hconnected : s.connected = 0
  · have hall : ∀ c ∈ s.interfaces, s.objects.get? c.path = some c := by
      rw [Careful, if_pos hconnected] at hok
      exact hok
    rw [(h.idle hconnected).1, List.nil_append]
    have hbase : Base { s with calls := s.interfaces } :=
      ⟨h.base.stored, h.base.nodup, fun c hc => h.base.fresh c (.inl (hc.elim id id)),
        fun c hc p hget => congrArg s.state (Option.some.inj ((hall c hc).symm.trans hget))⟩
    have honce : ∀ path, s.objects.has path → s.interfaces.countP (·.path = path) = 1 := by
      intro path hhas
      obtain ⟨p, hget⟩ := Dict.has_iff.mp hhas
      exact countP_eq_one h.base hall hget
    have hlive : ∀ c ∈ s.interfaces, s.objects.has c.path := fun c hc =>
      Dict.has_iff.mpr ⟨c, hall c hc⟩
    refine ⟨⟨hbase.stored, hbase.nodup, hbase.fresh, hbase.agree⟩,
      fun hzero => absurd hzero (Nat.succ_ne_zero _), fun _ => ⟨?_, honce, hlive⟩⟩
    exact (hbase.someInCall_iff honce hlive).symm
  · have hnil : s.interfaces = [] := by
      rw [Careful, if_neg hconnected] at hok
      exact hok
    have hlaw := h.law (Nat.pos_of_ne_zero hconnected)
    rw [hnil, List.append_nil]
    refine ⟨⟨hnil ▸ h.base.stored, hnil ▸ h.base.nodup, hnil ▸ h.base.fresh, h.base.agree⟩,
      fun hzero => absurd hzero (Nat.succ_ne_zero _), fun _ => ⟨?_, hlaw.once, hlaw.live⟩⟩
    exact (h.base.someInCall_iff hlaw.once hlaw.live).symm

theorem careful_of_onLoaded (h : Inv s) (hlaw : 0 < s.onLoaded.connected → Law s.onLoaded) :
    Careful s .loaded := by
  obtain ⟨m, hm⟩ := onLoaded_eq s
  rw [hm] at hlaw
  have hlaw := hlaw (Nat.succ_pos _)
  rw [Careful]
  split
  · next hconnected =>
    intro c hc
    have hmem : c ∈ s.calls ++ s.interfaces := List.mem_append_right _ hc
    obtain ⟨p, hget⟩ := Dict.has_iff.mp (hlaw.live c hmem)
    obtain ⟨hpath, hp⟩ := h.base.stored c.path p hget
    have honce := hlaw.once c.path (Dict.has_iff.mpr ⟨p, hget⟩)
    rw [eq_of_records honce hmem (List.mem_append_right _ hp) rfl hpath]
    rw [eq_of_records honce hmem (List.mem_append_right _ hp) rfl hpath] at hget
    exact hget
  · next hconnected =>
    rw [List.eq_nil_iff_forall_not_mem]
    intro c hc
    have hhas := hlaw.live c (List.mem_append_right _ hc)
    have honce := (h.law (Nat.pos_of_ne_zero hconnected)).once c.path hhas
    have htwice : (s.calls ++ s.interfaces).countP (·.path = c.path) = 1 := hlaw.once c.path hhas
    rw [List.countP_append, show s.calls.countP (·.path = c.path) = 1 from honce] at htwice
    have hpos : 0 < s.interfaces.countP (·.path = c.path) :=
      List.countP_pos_iff.mpr ⟨c, hc, decide_eq_true rfl⟩
    omega

/-! ## All runs -/

theorem Inv.step (e : Event) (h : Inv s) (hok : Careful s e) (hstep : step s e = some t) :
    Inv t := by
  cases e with
  | added path state =>
    cases hstep
    exact h.addProxy state hok
  | removed path =>
    cases hstep
    exact h.removeProxy hok
  | propertiesChanged path properties =>
    obtain ⟨-, heq⟩ := Option.ite_none_right_eq_some.mp hstep
    cases heq
    exact h.propertiesChanged hok
  | loaded =>
    cases hstep
    exact h.onLoaded hok

theorem careful_of_law (e : Event) (h : Inv s) (hstep : step s e = some t)
    (hlaw : 0 < t.connected → Law t) : Careful s e := by
  cases e with
  | added path state =>
    cases hstep
    exact careful_of_addProxy h state hlaw
  | removed path =>
    cases hstep
    exact careful_of_removeProxy h hlaw
  | propertiesChanged path properties =>
    obtain ⟨-, heq⟩ := Option.ite_none_right_eq_some.mp hstep
    cases heq
    exact careful_of_propertiesChanged h hlaw
  | loaded =>
    cases hstep
    exact careful_of_onLoaded h hlaw

/-- **Whether there is a call.** From the end of the first load on, the recorded calls are those of
the service, once each, and `inCall` says whether one of them is active, dialing or alerting, all
along a run if and only if each of its steps is careful. -/
theorem run_inCall_iff {es : List Event} (hrun : Runs.run step State.new es = some t) :
    Runs.Always step (fun s => 0 < s.connected → Law s) State.new es ↔
      Runs.Allowed step Careful State.new es :=
  Runs.always_iff_allowed_of_kept Inv.new (fun _ h => h.law)
    (fun _ e _ h hok hstep => h.step e hok hstep)
    (fun _ e _ h hstep hlaw => careful_of_law e h hstep hlaw) hrun

def changes (l : List (String × ℕ)) : Dict String ℕ :=
  l.foldl (fun d e => d.set e.1 e.2) Dict.empty

def oneCall : List Event :=
  [.loaded, .added "/org/gnome/Calls/Call/1" 5,
    .propertiesChanged "/org/gnome/Calls/Call/1" (changes [("CanDtmf", 1)]),
    .propertiesChanged "/org/gnome/Calls/Call/1" (changes [("State", 1), ("CanDtmf", 1)]),
    .removed "/org/gnome/Calls/Call/1"]

theorem run_inCall_oneCall : ∃ t, Runs.run step State.new oneCall = some t ∧
      Runs.Always step (fun s => 0 < s.connected → Law s) State.new oneCall := by
  obtain ⟨t, hrun⟩ : ∃ t, Runs.run step State.new oneCall = some t :=
    Option.isSome_iff_exists.mp (by decide)
  exact ⟨t, hrun, (run_inCall_iff hrun).mpr (by decide)⟩

def takenAtStart : List Event :=
  [.added "/org/gnome/Calls/Call/1" 5, .loaded,
    .propertiesChanged "/org/gnome/Calls/Call/1" (changes [("State", 1)])]

def otherFirst : List Event :=
  [.loaded, .added "/org/gnome/Calls/Call/1" 5,
    .propertiesChanged "/org/gnome/Calls/Call/1" (changes [("CanDtmf", 1), ("State", 1)])]

def restarted : List Event := [.loaded, .added "/org/gnome/Calls/Call/1" 1, .loaded]

theorem not_always_of_end {es : List Event} {b : Bool} {n : ℕ}
    (hend : (Runs.run step State.new es).map (fun t => (decide (0 < t.connected), t.inCall,
      t.records "/org/gnome/Calls/Call/1", decide t.SomeInCall,
      decide (t.objects.has "/org/gnome/Calls/Call/1"))) = some (true, b, n, true, true))
    (hbad : b = false ∨ n ≠ 1) :
    ¬ Runs.Always step (fun s => 0 < s.connected → Law s) State.new es := by
  obtain ⟨t, hrun, hstate⟩ := Option.map_eq_some_iff.mp hend
  obtain ⟨hconnected, hstate⟩ := Prod.mk.inj hstate
  obtain ⟨hin, hstate⟩ := Prod.mk.inj hstate
  obtain ⟨hrecords, hstate⟩ := Prod.mk.inj hstate
  obtain ⟨hsome, hhas⟩ := Prod.mk.inj hstate
  intro halways
  have hlaw := halways.last hrun (of_decide_eq_true hconnected)
  rcases hbad with hfalse | hne
  · have htrue := hlaw.inCall.mpr (of_decide_eq_true hsome)
    exact Bool.false_ne_true (hfalse.symm.trans (hin.symm.trans htrue))
  · exact hne (hrecords.symm.trans (hlaw.once _ (of_decide_eq_true hhas)))

theorem not_run_inCall :
    ¬ Runs.Always step (fun s => 0 < s.connected → Law s) State.new takenAtStart ∧
      ¬ Runs.Always step (fun s => 0 < s.connected → Law s) State.new otherFirst ∧
      ¬ Runs.Always step (fun s => 0 < s.connected → Law s) State.new restarted := by
  refine ⟨?_, ?_, ?_⟩
  · exact not_always_of_end (b := false) (n := 1) (by decide) (.inl rfl)
  · exact not_always_of_end (b := false) (n := 1) (by decide) (.inl rfl)
  · exact not_always_of_end (b := true) (n := 2) (by decide) (.inr (by decide))

end CallsMonitoring
