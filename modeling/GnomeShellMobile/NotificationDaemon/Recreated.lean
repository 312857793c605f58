import GnomeShellMobile.NotificationDaemon.Persisted

/-!
# NotificationDaemon — what is written and what is loaded

* `added`, `Added`: what the list of an app becomes when a notification is added.
* `Core.storedFor`: what is written of an app.
* `Core.live_load`: what a new daemon makes of that.
-/

namespace NotificationDaemon.Gtk

variable {s t u : State} {src n : ℕ} {appId id : String} {c : Serialized}

/-! ## Adding, as the apps see it -/

section Added

/-- What stays of an app when `id` is added: the one that has the id goes, and the oldest make
room. -/
def others (l : List (String × Serialized)) (id : String) : List (String × Serialized) :=
  let l := l.filter (·.1 ≠ id)
  l.drop (l.length + 1 - maxNotificationsPerSource)

def added (l : List (String × Serialized)) (id : String) (c : Serialized) :
    List (String × Serialized) :=
  others l id ++ [(id, c)]

theorem added_of_not_mem {l : List (String × Serialized)} (hid : id ∉ l.map Prod.fst)
    (hl : l.length < maxNotificationsPerSource) : added l id c = l ++ [(id, c)] := by
  have hfilter : l.filter (·.1 ≠ id) = l := by
    apply List.filter_eq_self.mpr
    intro e he
    exact decide_eq_true fun heq => hid (heq ▸ List.mem_map_of_mem he)
  have hdrop : l.length + 1 - maxNotificationsPerSource = 0 := by omega
  rw [added, others, hfilter, hdrop, List.drop_zero]

theorem added_of_mem {l : List (String × Serialized)} (hid : id ∈ l.map Prod.fst)
    (hl : l.length ≤ maxNotificationsPerSource) :
    added l id c = l.filter (·.1 ≠ id) ++ [(id, c)] := by
  have hlt : (l.filter (·.1 ≠ id)).length < l.length := by
    obtain ⟨e, he, rfl⟩ := List.mem_map.mp hid
    apply List.length_filter_lt_length_iff_exists.mpr
    exact ⟨e, he, by simp⟩
  have hdrop : (l.filter (·.1 ≠ id)).length + 1 - maxNotificationsPerSource = 0 := by omega
  rw [added, others, hdrop, List.drop_zero]

theorem live_of_get (hget : s.sources.get? appId = some src) : s.live appId = s.entries src := by
  rw [State.live, hget]

theorem live_of_none (hget : s.sources.get? appId = none) : s.live appId = [] := by
  rw [State.live, hget]

theorem map_fst_entries (s : State) (src : ℕ) : (s.entries src).map Prod.fst =
    (s.source src).notifications.map fun n => (s.notification n).id := by
  rw [State.entries, List.map_map]
  rfl

structure Added (s t : State) (appId : String) (src : ℕ) (id : String) (c : Serialized) : Prop where
  core : Core t []
  sources : t.sources = s.sources
  accepts : t.accepts = s.accepts
  isLoading : t.isLoading = s.isLoading
  last : t.last = s.last
  other : ∀ src', src' ≠ src → t.source src' = s.source src'
  inDestruction : (t.source src).inDestruction = (s.source src).inDestruction
  notifications : (t.source src).notifications ≠ []
  had : (t.source src).had = true
  saved : Saved t
  live : ∀ appId', t.live appId' = if appId' = appId then added (s.live appId) id c
    else s.live appId'

def State.make (s : State) (src : ℕ) (id : String) (c : Serialized) : State :=
  { s with
    notification := Function.update s.notification s.created ⟨id, src, c⟩
    created := s.created + 1 }

theorem make_notification_self (s : State) (src : ℕ) (id : String) (c : Serialized) :
    (s.make src id c).notification s.created = ⟨id, src, c⟩ := Function.update_self ..

theorem make_notification_other (s : State) (src : ℕ) (id : String) (c : Serialized)
    (h : n < s.created) : (s.make src id c).notification n = s.notification n :=
  Function.update_of_ne (Nat.ne_of_lt h) ..

theorem Core.map_make {α : Type*} (h : Core s []) (src src' : ℕ) (id : String) (c : Serialized)
    (f : ℕ → Notification → α) :
    (s.source src').notifications.map (fun n => f n ((s.make src id c).notification n)) =
      (s.source src').notifications.map fun n => f n (s.notification n) := by
  apply List.map_congr_left
  intro n hn
  rw [make_notification_other s src id c (h.own src' n hn).1]

theorem Core.make (h : Core s []) (src : ℕ) (id : String) (c : Serialized) :
    Core (s.make src id c) [] where
  __ := h
  byId src' := by
    have hentries := h.byId src'
    rw [List.filter_nil, List.append_nil] at hentries ⊢
    refine hentries.trans ?_
    exact (h.map_make src src' id c fun n notification => (notification.id, n)).symm
  own src' m hm := by
    obtain ⟨hlt, hsource⟩ := h.own src' m hm
    rw [make_notification_other s src id c hlt]
    exact ⟨Nat.lt_succ_of_lt hlt, hsource⟩
  taken src' m hm := by
    rw [make_notification_other s src id c (h.own src' m hm).1]
    exact h.taken src' m hm

theorem Core.live_make (h : Core s []) (src : ℕ) (id : String) (c : Serialized) (src' : ℕ) :
    (s.make src id c).entries src' = s.entries src' :=
  h.map_make src src' id c fun _ notification => (notification.id, notification.serialized)

theorem map_roomFor (s : State) (src : ℕ) (id : String) (c : Serialized) :
    (roomFor s src id).map (fun n => ((s.notification n).id, (s.notification n).serialized)) ++
      [(id, c)] = added (s.entries src) id c := by
  have hfilter : (s.entries src).filter (·.1 ≠ id) =
      ((s.source src).notifications.filter fun n => (s.notification n).id ≠ id).map
        fun n => ((s.notification n).id, (s.notification n).serialized) := by
    rw [State.entries, List.filter_map]
    rfl
  rw [added, others, hfilter, roomFor, List.length_map, List.map_drop]

theorem Core.addNew (h : Core s []) (hget : s.sources.get? appId = some src)
    (haccepts : s.accepts c = true) (hid : id ∉ inherited) :
    ∃ t, s.addNew src id c = .ok t ∧ Added s t appId src id c := by
  have happId := (h.registered appId src hget).2
  have hself := make_notification_self s src id c
  have hn : Unlisted (s.make src id c) src s.created := by
    refine ⟨Nat.lt_succ_self _, ?_, fun src' hmem => ?_, ?_, ?_⟩
    · rw [hself]
    · exact Nat.lt_irrefl _ (h.own src' _ hmem).1
    · rw [hself]
      exact haccepts
    · rw [hself]
      exact hid
  obtain ⟨t, hadd, hcore, htouches, hlist, hhad, -, hsaved⟩ :=
    (h.make src id c).addNotification hn (by rw [← happId] at hget; exact hget)
  rw [State.addNew, if_pos haccepts]
  refine ⟨t, hadd, hcore, htouches.sources, htouches.accepts, htouches.isLoading, htouches.last,
    htouches.other, htouches.inDestruction, ?_, hhad, hsaved, fun appId' => ?_⟩
  · rw [hlist]
    simp
  · by_cases heq : appId' = appId
    · subst heq
      rw [if_pos rfl, live_of_get (htouches.sources ▸ hget), live_of_get hget,
        ← h.live_make src id c src, ← map_roomFor, State.entries, hlist, htouches.notification,
        List.map_append, List.map_singleton]
      simp only [hself]
    · rw [if_neg heq]
      cases hget' : s.sources.get? appId' with
      | none => rw [live_of_none hget', live_of_none (htouches.sources ▸ hget')]
      | some src' =>
        have hne : src' ≠ src := by
          rintro rfl
          exact heq ((h.registered appId' src' hget').2.symm.trans happId)
        rw [live_of_get hget', live_of_get (htouches.sources ▸ hget'), ← h.live_make src id c src',
          State.entries, State.entries, htouches.other src' hne, htouches.notification]

def State.makeSource (s : State) (appId : String) : State :=
  { s.setSource s.createdSources (Source.new appId) with
    createdSources := s.createdSources + 1
    sources := s.sources.set appId s.createdSources }

theorem ensureAppSource_of_get (valid : Bool) (hget : s.sources.get? appId = some src) :
    s.ensureAppSource appId valid = some (s, src) := by
  rw [State.ensureAppSource, hget]

theorem ensureAppSource_of_valid (hget : s.sources.get? appId = none) :
    s.ensureAppSource appId true = some (s.makeSource appId, s.createdSources) := by
  rw [State.ensureAppSource, hget]
  rfl

theorem ensureAppSource_of_invalid (hget : s.sources.get? appId = none) :
    s.ensureAppSource appId false = none := by
  rw [State.ensureAppSource, hget]
  rfl

theorem Core.notifications_created (h : Core s []) :
    (s.source s.createdSources).notifications = [] := by
  by_contra hne
  exact Nat.lt_irrefl _ (h.registered _ _ (h.kept _ hne)).1

theorem makeSource_other (s : State) (appId : String) (hsrc : src ≠ s.createdSources) :
    (s.makeSource appId).source src = s.source src := setSource_other _ _ hsrc

theorem makeSource_self (s : State) (appId : String) :
    (s.makeSource appId).source s.createdSources = Source.new appId := setSource_self ..

theorem Core.makeSource (h : Core s []) (hget : s.sources.get? appId = none) :
    Core (s.makeSource appId) [] := by
  have hself := makeSource_self s appId
  have hlist : ∀ src', ((s.makeSource appId).source src').notifications =
      (s.source src').notifications := by
    intro src'
    by_cases hne : src' = s.createdSources
    · subst hne
      rw [hself, h.notifications_created]
      rfl
    · rw [makeSource_other s appId hne]
  refine
    { registered := fun appId' src' hget' => ?_
      byId := fun src' => ?_
      own := fun src' => ?_
      taken := fun src' => ?_
      room := fun src' => ?_
      kept := fun src' hne => ?_ }
  · have hset : (s.sources.set appId s.createdSources).get? appId' = some src' := hget'
    rw [Dict.get?_set] at hset
    split at hset
    · next heq =>
      cases hset
      rw [hself]
      exact ⟨Nat.lt_succ_self _, heq.symm⟩
    · obtain ⟨hlt, happId⟩ := h.registered appId' src' hset
      rw [makeSource_other s appId (Nat.ne_of_lt hlt)]
      exact ⟨Nat.lt_succ_of_lt hlt, happId⟩
  · by_cases hne : src' = s.createdSources
    · subst hne
      rw [hself]
      rfl
    · rw [makeSource_other s appId hne]
      exact h.byId src'
  · rw [hlist]
    exact h.own src'
  · rw [hlist]
    exact h.taken src'
  · rw [hlist]
    exact h.room src'
  · rw [hlist] at hne
    have hkept := h.kept src' hne
    have hsrc : src' ≠ s.createdSources := Nat.ne_of_lt (h.registered _ _ hkept).1
    rw [makeSource_other s appId hsrc]
    have happ : (s.source src').appId ≠ appId := by
      intro heq
      rw [heq, hget] at hkept
      cases hkept
    show (s.sources.set appId s.createdSources).get? _ = _
    rw [Dict.get?_set_of_ne _ _ happ]
    exact hkept

theorem get?_makeSource (s : State) (appId : String) :
    (s.makeSource appId).sources.get? appId = some s.createdSources := Dict.get?_set_self ..

theorem Core.live_makeSource (h : Core s []) (hget : s.sources.get? appId = none)
    (appId' : String) : (s.makeSource appId).live appId' = s.live appId' := by
  by_cases heq : appId' = appId
  · subst heq
    rw [live_of_none hget, live_of_get (get?_makeSource s appId'), State.entries, makeSource_self]
    rfl
  · have hset : (s.makeSource appId).sources.get? appId' = s.sources.get? appId' :=
      Dict.get?_set_of_ne _ _ heq
    cases hget' : s.sources.get? appId' with
    | none => rw [live_of_none hget', live_of_none (hset.trans hget')]
    | some src' =>
      have hlt := (h.registered appId' src' hget').1
      rw [live_of_get hget', live_of_get (hset.trans hget'), State.entries,
        makeSource_other s appId (Nat.ne_of_lt hlt)]
      rfl

end Added

/-! ## Writing and loading -/

section Stored

theorem lookup_map {α : Type*} (d : Dict String ℕ) (f : ℕ → α) (key : String) :
    (d.entries.map fun e => (e.1, f e.2)).lookup key = (d.get? key).map f := by
  rw [Dict.get?]
  induction d.entries with
  | nil => rfl
  | cons e l ih =>
    rw [List.map_cons, List.lookup_cons, List.find?_cons]
    by_cases heq : e.1 = key
    · simp [heq]
    · rw [beq_eq_false_iff_ne.mpr (Ne.symm heq), decide_eq_false heq]
      exact ih

theorem Core.serialize (h : Core s []) (src : ℕ) :
    s.serialize src = Dict.enumerate arrayIndex (s.entries src) := by
  have hentries := h.byId src
  rw [List.filter_nil, List.append_nil] at hentries
  rw [State.serialize, hentries, State.entries]
  refine (Dict.enumerate_map arrayIndex (fun e => (s.notification e.2).serialized) _).trans ?_
  rw [List.map_map]
  rfl

theorem Core.serialization (h : Core s []) : s.serialization =
    s.sources.entries.map fun e => (e.1, Dict.enumerate arrayIndex (s.entries e.2)) := by
  apply List.map_congr_left
  rintro ⟨appId, src⟩ hmem
  rw [h.serialize, (h.registered appId src (Dict.get?_eq_some.mpr hmem)).2]

theorem Core.storedFor (h : Core s []) (hstored : s.stored = s.serialization) (appId : String) :
    s.storedFor appId = Dict.enumerate arrayIndex (s.live appId) := by
  rw [State.storedFor, hstored, h.serialization,
    lookup_map s.sources (fun src => Dict.enumerate arrayIndex (s.entries src))]
  cases hget : s.sources.get? appId with
  | none =>
    rw [live_of_none hget]
    rfl
  | some src =>
    rw [live_of_get hget]
    rfl

structure Loadable (accepts : Serialized → Bool) (l : List (String × Serialized)) : Prop where
  ids : (l.map Prod.fst).Nodup
  taken : ∀ e ∈ l, accepts e.2 = true ∧ e.1 ∉ inherited
  room : l.length ≤ maxNotificationsPerSource

theorem Core.loadable_entries (h : Core s []) (src : ℕ) : Loadable s.accepts (s.entries src) where
  ids := by
    rw [map_fst_entries]
    exact h.nodup_id src
  taken e he := by
    obtain ⟨n, hn, rfl⟩ := List.mem_map.mp he
    exact h.taken src n hn
  room := by
    rw [State.entries, List.length_map]
    exact h.room src

theorem Core.loadable_live (h : Core s []) (appId : String) : Loadable s.accepts (s.live appId) := by
  cases hget : s.sources.get? appId with
  | none =>
    rw [live_of_none hget]
    exact ⟨List.nodup_nil, fun e he => (List.not_mem_nil he).elim, Nat.zero_le _⟩
  | some src =>
    rw [live_of_get hget]
    exact h.loadable_entries src

theorem Loadable.perm {accepts : Serialized → Bool} {l l' : List (String × Serialized)}
    (h : Loadable accepts l) (hperm : l'.Perm l) : Loadable accepts l' where
  ids := (hperm.map Prod.fst).nodup_iff.mpr h.ids
  taken e he := h.taken e (hperm.mem_iff.mp he)
  room := hperm.length_eq ▸ h.room

/-- The notifications of one app are loaded in the order in which they were written. Induction on
what is left to load. -/
theorem Core.foldlM_addNew (l : List (String × Serialized)) (h : Core s [])
    (hget : s.sources.get? appId = some src) (hload : Loadable s.accepts (s.live appId ++ l)) :
    ∃ t, l.foldlM (fun s e => s.addNew src e.1 e.2) s = .ok t ∧ Core t [] ∧
      t.sources = s.sources ∧ t.accepts = s.accepts ∧
      ∀ appId', t.live appId' = if appId' = appId then s.live appId ++ l else s.live appId' := by
  induction l generalizing s with
  | nil =>
    refine ⟨s, rfl, h, rfl, rfl, fun appId' => ?_⟩
    split
    · next heq => rw [heq, List.append_nil]
    · rfl
  | cons e l ih =>
    obtain ⟨haccepts, hid⟩ := hload.taken e (List.mem_append_right _ List.mem_cons_self)
    obtain ⟨t, hadd, hadded⟩ := h.addNew hget haccepts hid
    have hnew : e.1 ∉ (s.live appId).map Prod.fst := by
      have hnodup := hload.ids
      rw [List.map_append, List.map_cons] at hnodup
      intro hmem
      exact (List.nodup_append.mp hnodup).2.2 _ hmem _ List.mem_cons_self rfl
    have hlength : (s.live appId).length < maxNotificationsPerSource := by
      have hroom := hload.room
      rw [List.length_append, List.length_cons] at hroom
      omega
    have hlive : t.live appId = s.live appId ++ [e] := by
      rw [hadded.live, if_pos rfl, added_of_not_mem hnew hlength]
    obtain ⟨u, hrest, hcore, hsources, haccepts', hlive'⟩ := ih hadded.core
      (hadded.sources ▸ hget) (by
        rw [hlive, hadded.accepts, List.append_assoc]
        exact hload)
    refine ⟨u, ?_, hcore, hsources.trans hadded.sources, haccepts'.trans hadded.accepts,
      fun appId' => ?_⟩
    · rw [List.foldlM_cons, hadd]
      exact hrest
    · rw [hlive', hlive, List.append_assoc]
      by_cases heq : appId' = appId
      · rw [if_pos heq, if_pos heq]
        rfl
      · rw [if_neg heq, if_neg heq, hadded.live, if_neg heq]

theorem lookup_of_not_mem {α : Type*} {l : List (String × α)} {key : String}
    (h : key ∉ l.map Prod.fst) : l.lookup key = none := by
  rw [List.lookup_eq_none_iff]
  intro e he
  apply bne_iff_ne.mpr
  rintro rfl
  exact h (List.mem_map_of_mem he)

/-- One app after the other. Induction on what is left to load. -/
theorem Core.foldlM_loadSource {validApp : String → Bool}
    (stored : List (String × List (String × Serialized))) (h : Core s [])
    (hkeys : (stored.map Prod.fst).Nodup) (hload : ∀ e ∈ stored, Loadable s.accepts e.2)
    (hvalid : ∀ e ∈ stored, validApp e.1 = true) (hnew : ∀ e ∈ stored, s.sources.get? e.1 = none) :
    ∃ t, stored.foldlM (State.loadSource validApp) s = .ok t ∧
      ∀ appId, t.live appId = (stored.lookup appId).getD (s.live appId) := by
  induction stored generalizing s with
  | nil => exact ⟨s, rfl, fun _ => rfl⟩
  | cons e stored ih =>
    obtain ⟨appId, l⟩ := e
    rw [List.map_cons, List.nodup_cons] at hkeys
    have hget := hnew _ List.mem_cons_self
    have hfirst : ∃ t, State.loadSource validApp s (appId, l) = .ok t ∧ Core t [] ∧
        t.accepts = s.accepts ∧ (∀ e ∈ stored, t.sources.get? e.1 = none) ∧
        ∀ appId', t.live appId' = if appId' = appId then l else s.live appId' := by
      have hrest : ∀ e ∈ stored, s.sources.get? e.1 = none := fun e he =>
        hnew e (List.mem_cons_of_mem _ he)
      by_cases hl : l = []
      · subst hl
        refine ⟨s, rfl, h, rfl, hrest, fun appId' => ?_⟩
        split
        · next heq => rw [heq, live_of_none hget]
        · rfl
      · have hmake := h.makeSource hget
        have hnil : (s.makeSource appId).live appId = [] := by
          rw [h.live_makeSource hget, live_of_none hget]
        obtain ⟨t, hfold, hcore, hsources, haccepts, hlive⟩ :=
          hmake.foldlM_addNew l (get?_makeSource s appId) (by
            rw [hnil, List.nil_append]
            exact hload _ List.mem_cons_self)
        refine ⟨t, ?_, hcore, haccepts, fun e he => ?_, fun appId' => ?_⟩
        · rw [State.loadSource, if_neg hl, hvalid _ List.mem_cons_self,
            ensureAppSource_of_valid hget]
          exact hfold
        · have hne : e.1 ≠ appId := by
            rintro rfl
            exact hkeys.1 (show e.1 ∈ _ from List.mem_map_of_mem he)
          rw [hsources]
          show (s.sources.set appId _).get? e.1 = none
          rw [Dict.get?_set_of_ne _ _ hne]
          exact hrest e he
        · rw [hlive, hnil, List.nil_append, h.live_makeSource hget]
    obtain ⟨t, hok, hcore, haccepts, hget', hlive⟩ := hfirst
    obtain ⟨u, hfold, hlive'⟩ := ih hcore hkeys.2
      (fun e he => haccepts ▸ hload e (List.mem_cons_of_mem _ he))
      (fun e he => hvalid e (List.mem_cons_of_mem _ he)) hget'
    refine ⟨u, ?_, fun appId' => ?_⟩
    · rw [List.foldlM_cons, hok]
      exact hfold
    · rw [hlive', hlive, List.lookup_cons]
      by_cases heq : appId' = appId
      · rw [if_pos heq, heq, beq_self_eq_true, lookup_of_not_mem hkeys.1]
        rfl
      · rw [if_neg heq, beq_eq_false_iff_ne.mpr heq]

theorem Core.empty (accepts : Serialized → Bool) (isLoading : Bool)
    (stored : List (String × List (String × Serialized))) :
    Core (State.empty accepts isLoading stored) [] where
  registered appId src hget := by cases hget
  byId _ := rfl
  own src n hn := by cases hn
  taken src n hn := by cases hn
  room _ := Nat.zero_le _
  kept src hne := absurd rfl hne

theorem Core.live_load (h : Core s []) (hstored : s.stored = s.serialization)
    {validApp : String → Bool} (hvalid : ∀ appId ∈ s.sources.keys, validApp appId = true)
    (appId : String) : (State.load validApp s.accepts s.stored).live appId = s.storedFor appId := by
  have hkeys : s.stored.map Prod.fst = s.sources.keys := by
    rw [hstored, h.serialization, List.map_map]
    rfl
  have hload : ∀ e ∈ s.stored, Loadable s.accepts e.2 := by
    intro e he
    rw [hstored, h.serialization] at he
    obtain ⟨⟨appId', src⟩, -, rfl⟩ := List.mem_map.mp he
    exact (h.loadable_entries src).perm (Dict.enumerate_perm _ _)
  have happs : ∀ e ∈ s.stored, validApp e.1 = true := fun e he =>
    hvalid e.1 (hkeys ▸ List.mem_map_of_mem he)
  obtain ⟨t, hok, hlive⟩ := (Core.empty s.accepts true s.stored).foldlM_loadSource s.stored
    (hkeys ▸ s.sources.nodup) hload happs fun _ _ => rfl
  rw [State.load, hok]
  exact hlive appId

end Stored

end NotificationDaemon.Gtk
