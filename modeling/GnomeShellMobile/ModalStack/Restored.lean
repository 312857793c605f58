import GnomeShellMobile.ModalStack.Saved

/-!
# ModalStack — what is restored

* `Inv`: the handlers on the actors, the count and what is at the bottom, after any calls.
* `Inv.destroy`: when an actor is destroyed its grabs are popped and no record keeps it.
* `run_layers`: after calls for which every grab that is popped finds the records above it to have
  saved the same, the stack stands for the layers that these calls leave.
-/

namespace ModalStack

open Signals

variable {α : Type} {top : Option α × ℕ} {above : List (Record α)} {r : Record α} {s : State α}
  {grab : ℕ} {x : α}
variable {y : α} {rs : List (Record α)}

def Record.watch (r : Record α) : Option α × Option ℕ := (r.prevFocus, r.prevFocusDestroyId)

def watchedId (w : Option α × Option ℕ) : Option ℕ := w.1.bind fun _ => w.2

def Record.tag (r : Record α) : α × ℕ × ℕ := (r.actor, r.grab, r.destroyId)

theorem map_tag_shiftUp (below : Record α) :
    (State.shiftUp below above).map Record.tag = above.map Record.tag := by
  induction above generalizing below with
  | nil => rfl
  | cons r rs ih =>
    rw [State.shiftUp, List.map_cons, List.map_cons, ih]
    rfl

theorem map_watch_shiftUp (below : Record α) :
    (State.shiftUp below above).map Record.watch = ((below :: above).map Record.watch).dropLast := by
  induction above generalizing below with
  | nil => rfl
  | cons r rs ih =>
    rw [State.shiftUp, List.map_cons, ih, List.map_cons, List.map_cons, List.map_cons,
      List.dropLast_cons_cons]
    rfl

variable [DecidableEq α]

structure Inv (s : State α) : Prop where
  sound : s.emitters.Sound
  normal : ∀ y, ∀ h ∈ s.emitters.handlers y, h.signalName = "destroy" ∧ h.after = false
  actor : ∀ r ∈ s.stack, ∃ h ∈ s.emitters.handlers r.actor,
    h.id = r.destroyId ∧ h.callback = .actor r.grab
  ofActor : ∀ y, ∀ h ∈ s.emitters.handlers y, ∀ grab, h.callback = .actor grab →
    ∃ r ∈ s.stack, r.tag = (y, grab, h.id)
  prevFocus : ∀ w ∈ s.stack.map Record.watch, ∀ y, w.1 = some y →
    ∃ h ∈ s.emitters.handlers y, w.2 = some h.id ∧ h.callback = .prevFocus y
  ofPrevFocus : ∀ y, ∀ h ∈ s.emitters.handlers y, ∀ z, h.callback = .prevFocus z → z = y
  grabs : (s.stack.map Record.grab).Nodup
  ordered : ((s.stack.map Record.watch).filterMap watchedId).Pairwise (· < ·)
  modalCount : s.modalCount = s.stack.length
  unredirectDisabled : s.unredirectDisabled = if s.stack = [] then 0 else 1
  bottom : (under s.top s.stack).2 = modeNormal

omit [DecidableEq α] in
theorem Inv.new (keyFocus : Option α) : Inv (State.new keyFocus) where
  sound := .empty
  normal _ _ h := absurd h List.not_mem_nil
  actor _ h := absurd h List.not_mem_nil
  ofActor _ _ h := absurd h List.not_mem_nil
  prevFocus _ h := absurd h List.not_mem_nil
  ofPrevFocus _ _ h := absurd h List.not_mem_nil
  grabs := List.nodup_nil
  ordered := .nil
  modalCount := rfl
  unredirectDisabled := rfl
  bottom := rfl

omit [DecidableEq α] in
theorem Inv.setKeyFocus (h : Inv s) (keyFocus : Option α) : Inv (s.setKeyFocus keyFocus) where
  __ := h
  bottom := by
    have hbottom := h.bottom
    show (under (keyFocus, s.actionMode) s.stack).2 = modeNormal
    cases hstack : s.stack with
    | nil =>
      rw [hstack] at hbottom
      exact hbottom
    | cons r rs =>
      rw [hstack] at hbottom
      exact hbottom

/-! ## Pop -/

theorem mem_disconnectPrevFocus {e : Emitters α (Callback α)} {g : Handler (Callback α)} :
    g ∈ (State.disconnectPrevFocus e r).handlers y ↔
      g ∈ e.handlers y ∧ ¬ (r.prevFocus = some y ∧ r.prevFocusDestroyId = some g.id) := by
  rw [State.disconnectPrevFocus]
  cases hfocus : r.prevFocus with
  | none => simp
  | some z =>
    cases hid : r.prevFocusDestroyId with
    | none =>
      show g ∈ e.handlers y ↔ _
      simp
    | some id =>
      show g ∈ (e.disconnect z id).handlers y ↔ _
      rw [Emitters.handlers_disconnect, List.mem_filter, decide_eq_true_eq, Option.some_inj,
        Option.some_inj, eq_comm (a := z), eq_comm (a := id)]

theorem sound_disconnectPrevFocus {e : Emitters α (Callback α)} (hs : e.Sound)
    (hconn : ∀ y, r.prevFocus = some y → ∃ h ∈ e.handlers y, r.prevFocusDestroyId = some h.id) :
    (State.disconnectPrevFocus e r).Sound := by
  rw [State.disconnectPrevFocus]
  cases hfocus : r.prevFocus with
  | none => exact hs
  | some y =>
    obtain ⟨h, hh, hid⟩ := hconn y hfocus
    dsimp only
    rw [hid]
    exact hs.disconnect ⟨h, hh, rfl⟩

theorem popModal_stack (h : s.fromGrab grab = r :: above) :
    (s.popModal grab).1.stack.map Record.tag =
        (s.belowGrab grab).map Record.tag ++ above.map Record.tag ∧
      (s.popModal grab).1.stack.map Record.watch = (s.stack.map Record.watch).dropLast := by
  have hstack : (s.popModal grab).1.stack = s.belowGrab grab ++ State.shiftUp r above := by
    rw [State.popModal_eq h]
  rw [hstack, List.map_append, List.map_append, map_tag_shiftUp, map_watch_shiftUp]
  refine ⟨rfl, ?_⟩
  conv_rhs => rw [(State.fromGrab_eq h).1, List.map_append]
  rw [List.dropLast_append_of_ne_nil]
  rw [List.map_cons]
  exact List.cons_ne_nil _ _

theorem popModal_handlers (h : s.fromGrab grab = r :: above)
    {g : Handler (Callback α)} {t : Record α}
    (ht : (r :: above).getLast (List.cons_ne_nil r above) = t) :
    g ∈ (s.popModal grab).1.emitters.handlers y ↔ g ∈ s.emitters.handlers y ∧
      ¬ (y = r.actor ∧ g.id = r.destroyId) ∧
      ¬ (t.prevFocus = some y ∧ t.prevFocusDestroyId = some g.id) := by
  have hemitters : (s.popModal grab).1.emitters =
      State.disconnectPrevFocus (s.emitters.disconnect r.actor r.destroyId) t := by
    rw [State.popModal_eq h, ht]
  rw [hemitters, mem_disconnectPrevFocus, Emitters.handlers_disconnect, List.mem_filter,
    decide_eq_true_eq, and_assoc]

omit [DecidableEq α] in
theorem mem_of_fromGrab (hgrab : s.fromGrab grab = r :: above) : r ∈ s.stack := by
  rw [(State.fromGrab_eq hgrab).1]
  exact List.mem_append_right _ List.mem_cons_self

omit [DecidableEq α] in
theorem exists_getLast (hgrab : s.fromGrab grab = r :: above) :
    ∃ t ∈ s.stack, (r :: above).getLast (List.cons_ne_nil r above) = t ∧
      s.stack.map Record.watch = (s.stack.map Record.watch).dropLast ++ [t.watch] := by
  have hstack := (State.fromGrab_eq hgrab).1
  refine ⟨_, ?_, rfl, ?_⟩
  · rw [hstack]
    exact List.mem_append_right _ (List.getLast_mem _)
  · have hlast : (s.stack.map Record.watch).getLast? =
        some ((r :: above).getLast (List.cons_ne_nil r above)).watch := by
      rw [List.getLast?_map, hstack, List.getLast?_append_of_ne_nil _ (List.cons_ne_nil r above),
        List.getLast?_eq_some_getLast (List.cons_ne_nil r above)]
      rfl
    exact (List.dropLast_append_getLast? _ hlast).symm

theorem popModal_length (hgrab : s.fromGrab grab = r :: above) :
    (s.popModal grab).1.stack.length + 1 = s.stack.length := by
  have hlength := congrArg List.length (popModal_stack hgrab).2
  rw [List.length_map, List.length_dropLast, List.length_map] at hlength
  have hpos := List.length_pos_of_mem (mem_of_fromGrab hgrab)
  omega

omit [DecidableEq α] in
theorem Inv.callback_actor (h : Inv s) (hr : r ∈ s.stack) {g : Handler (Callback α)}
    (hg : g ∈ s.emitters.handlers r.actor) (hid : g.id = r.destroyId) :
    g.callback = .actor r.grab := by
  obtain ⟨g', hg', hid', hc'⟩ := h.actor r hr
  rw [h.sound.eq_of_id hg hg' (hid.trans hid'.symm)]
  exact hc'

omit [DecidableEq α] in
theorem Inv.callback_prevFocus (h : Inv s) (hr : r ∈ s.stack) {g : Handler (Callback α)}
    (hg : g ∈ s.emitters.handlers y) (hfocus : r.prevFocus = some y)
    (hid : r.prevFocusDestroyId = some g.id) : g.callback = .prevFocus y := by
  obtain ⟨g', hg', hid', hc'⟩ := h.prevFocus r.watch (List.mem_map_of_mem hr) y hfocus
  rw [h.sound.eq_of_id hg hg' (Option.some.inj (hid.symm.trans hid'))]
  exact hc'

theorem Inv.exists_tag (h : Inv s) (hgrab : s.fromGrab grab = r :: above) {r' : Record α}
    (hr' : r' ∈ (s.popModal grab).1.stack) : ∃ r'' ∈ s.stack, r''.tag = r'.tag ∧ r''.grab ≠ grab := by
  obtain ⟨hstack, hr, hbelow⟩ := State.fromGrab_eq hgrab
  have htag := List.mem_map_of_mem (f := Record.tag) hr'
  rw [(popModal_stack hgrab).1] at htag
  rcases List.mem_append.mp htag with htag | htag
  · obtain ⟨r'', hr'', heq⟩ := List.mem_map.mp htag
    exact ⟨r'', hstack ▸ List.mem_append_left _ hr'', heq, hbelow r'' hr''⟩
  · obtain ⟨r'', hr'', heq⟩ := List.mem_map.mp htag
    refine ⟨r'', hstack ▸ List.mem_append_right _ (List.mem_cons_of_mem _ hr''), heq, ?_⟩
    have hgrabs := h.grabs
    rw [hstack] at hgrabs
    exact hr ▸ grab_ne_of_mem hgrabs r'' hr''

theorem mem_tags (hgrab : s.fromGrab grab = r :: above) {r' : Record α} (hr' : r' ∈ s.stack)
    (hne : r'.tag ≠ r.tag) : r'.tag ∈ (s.popModal grab).1.stack.map Record.tag := by
  rw [(popModal_stack hgrab).1, ← List.map_append]
  rw [(State.fromGrab_eq hgrab).1] at hr'
  rcases List.mem_append.mp hr' with hr' | hr'
  · exact List.mem_map_of_mem (List.mem_append_left _ hr')
  · rcases List.mem_cons.mp hr' with rfl | hr'
    · exact absurd rfl hne
    · exact List.mem_map_of_mem (List.mem_append_right _ hr')

theorem popModal_grabs (hgrab : s.fromGrab grab = r :: above) :
    ((s.popModal grab).1.stack.map Record.grab).Sublist (s.stack.map Record.grab) := by
  obtain ⟨htags, -⟩ := popModal_stack hgrab
  have hgrabs := congrArg (List.map fun w : α × ℕ × ℕ => w.2.1) htags
  rw [List.map_append, List.map_map, List.map_map, List.map_map] at hgrabs
  have hgrabs' : (s.popModal grab).1.stack.map Record.grab =
      (s.belowGrab grab).map Record.grab ++ above.map Record.grab := hgrabs
  rw [hgrabs', (State.fromGrab_eq hgrab).1, List.map_append, List.map_cons]
  exact (List.Sublist.refl _).append (List.sublist_cons_self _ _)

theorem Inv.unredirectDisabled_popModal (h : Inv s) (hgrab : s.fromGrab grab = r :: above) :
    (s.popModal grab).1.unredirectDisabled = if (s.popModal grab).1.stack = [] then 0 else 1 := by
  have hcount := popModal_length hgrab
  have hmodal := h.modalCount
  have hdisabled := h.unredirectDisabled
  rw [if_neg (List.ne_nil_of_mem (mem_of_fromGrab hgrab))] at hdisabled
  have hafter : (s.popModal grab).1.unredirectDisabled = if 0 < s.modalCount - 1 then 1 else 0 := by
    rw [State.popModal_eq hgrab]
    dsimp only
    rw [hdisabled]
    rfl
  rw [hafter]
  by_cases hnil : (s.popModal grab).1.stack = []
  · rw [if_pos hnil, if_neg]
    rw [hnil, List.length_nil] at hcount
    omega
  · rw [if_neg hnil, if_pos]
    have hpos := List.length_pos_iff.mpr hnil
    omega

theorem Inv.bottom_popModal (h : Inv s) (hgrab : s.fromGrab grab = r :: above) :
    (under (s.popModal grab).1.top (s.popModal grab).1.stack).2 = modeNormal := by
  have hbottom := h.bottom
  have hstack := (State.fromGrab_eq hgrab).1
  have hstack' : (s.popModal grab).1.stack = s.belowGrab grab ++ State.shiftUp r above := by
    rw [State.popModal_eq hgrab]
  rw [hstack']
  rw [hstack] at hbottom
  cases hbelow : s.belowGrab grab with
  | cons r' rs =>
    rw [hbelow] at hbottom
    exact hbottom
  | nil =>
    rw [hbelow] at hbottom
    cases above with
    | cons r' rs => exact hbottom
    | nil =>
      have hone : s.modalCount = 1 := by
        rw [h.modalCount, hstack, hbelow]
        rfl
      show (s.popModal grab).1.actionMode = modeNormal
      rw [State.popModal_eq hgrab]
      dsimp only
      rw [hone]
      rfl

/-- **A grab is popped.** -/
theorem Inv.popModal (h : Inv s) (hgrab : s.fromGrab grab = r :: above) :
    Inv (s.popModal grab).1 := by
  have hr := (State.fromGrab_eq hgrab).2.1
  have hrstack := mem_of_fromGrab hgrab
  have hwatch := (popModal_stack hgrab).2
  obtain ⟨t, htstack, ht, htop⟩ := exists_getLast hgrab
  have hmem : ∀ y g, g ∈ (s.popModal grab).1.emitters.handlers y ↔ _ := fun y g =>
    popModal_handlers hgrab ht
  refine ⟨?_, ?_, ?_, ?_, ?_, ?_, ?_, ?_, ?_, h.unredirectDisabled_popModal hgrab,
    h.bottom_popModal hgrab⟩
  · rw [State.popModal_eq hgrab, ht]
    obtain ⟨g, hg, hid, -⟩ := h.actor r hrstack
    apply sound_disconnectPrevFocus (h.sound.disconnect ⟨g, hg, hid⟩)
    intro y hy
    obtain ⟨g', hg', hid', hc'⟩ := h.prevFocus t.watch (List.mem_map_of_mem htstack) y hy
    refine ⟨g', ?_, hid'⟩
    rw [Emitters.handlers_disconnect, List.mem_filter, decide_eq_true_eq]
    refine ⟨hg', ?_⟩
    rintro ⟨rfl, heq⟩
    cases hc'.symm.trans (h.callback_actor hrstack hg' heq)
  · exact fun y g hg => h.normal y g ((hmem y g).mp hg).1
  · intro r' hr'
    obtain ⟨r'', hr'', htag, hne⟩ := h.exists_tag hgrab hr'
    obtain ⟨g, hg, hid, hc⟩ := h.actor r'' hr''
    obtain ⟨hactor', htag⟩ := Prod.mk.inj htag
    obtain ⟨hgrab', hid'⟩ := Prod.mk.inj htag
    rw [← hactor', ← hgrab', ← hid']
    refine ⟨g, (hmem _ g).mpr ⟨hg, ?_, ?_⟩, hid, hc⟩
    · rintro ⟨hactor, heq⟩
      have hcallback := h.callback_actor hrstack (hactor ▸ hg) heq
      exact hne ((Callback.actor.inj (hc.symm.trans hcallback)).trans hr)
    · rintro ⟨hfocus, heq⟩
      cases hc.symm.trans (h.callback_prevFocus htstack hg hfocus heq)
  · intro y g hg grab' hc
    obtain ⟨hg, hfirst, -⟩ := (hmem y g).mp hg
    obtain ⟨r', hr', htag⟩ := h.ofActor y g hg grab' hc
    have hne : r'.tag ≠ r.tag := by
      intro heq
      obtain ⟨hy, hrest⟩ := Prod.mk.inj (htag.symm.trans heq)
      exact hfirst ⟨hy, (Prod.mk.inj hrest).2⟩
    have hleft := mem_tags hgrab hr' hne
    rw [htag] at hleft
    exact List.mem_map.mp hleft
  · intro w hw y hy
    rw [hwatch] at hw
    obtain ⟨g, hg, hid, hc⟩ := h.prevFocus w ((List.dropLast_sublist _).subset hw) y hy
    refine ⟨g, (hmem y g).mpr ⟨hg, ?_, ?_⟩, hid, hc⟩
    · rintro ⟨rfl, heq⟩
      cases hc.symm.trans (h.callback_actor hrstack hg heq)
    · -- the handlers of two records are not the same
      rintro ⟨hfocus, heq⟩
      have hordered := h.ordered
      rw [htop, List.filterMap_append, List.pairwise_append] at hordered
      have hw' : g.id ∈ (s.stack.map Record.watch).dropLast.filterMap watchedId :=
        List.mem_filterMap.mpr ⟨w, hw, by rw [watchedId, hy, hid]; rfl⟩
      have ht' : g.id ∈ [t.watch].filterMap watchedId :=
        List.mem_filterMap.mpr ⟨t.watch, List.mem_singleton_self _, by
          rw [watchedId, Record.watch, hfocus, heq]
          rfl⟩
      exact Nat.lt_irrefl _ (hordered.2.2 _ hw' _ ht')
  · exact fun y g hg => h.ofPrevFocus y g ((hmem y g).mp hg).1
  · exact h.grabs.sublist (popModal_grabs hgrab)
  · rw [hwatch]
    exact h.ordered.sublist ((List.dropLast_sublist _).filterMap _)
  · have hminus : (s.popModal grab).1.modalCount = s.modalCount - 1 := by
      rw [State.popModal_eq hgrab]
    have hmodal := h.modalCount
    have hcount := popModal_length hgrab
    omega

/-! ## Push -/

omit [DecidableEq α] in
theorem fromGrab_eq_nil : s.fromGrab grab = [] ↔ ∀ r ∈ s.stack, r.grab ≠ grab := by
  rw [State.fromGrab, List.dropWhile_eq_nil_iff]
  simp only [decide_eq_true_eq]

theorem pushModal_stack (stage : α) (s : State α) (actor : α) (grab : ℕ) (actionMode : Option ℕ) :
    (s.pushModal stage actor grab actionMode).stack = s.stack ++ [⟨actor, grab, s.emitters.nextId,
      s.keyFocus, s.keyFocus.map fun _ => s.emitters.nextId + 1, s.actionMode⟩] := by
  rw [State.pushModal]
  cases s.keyFocus <;> rfl

theorem pushModal_handlers (stage : α) {actor : α} {actionMode : Option ℕ}
    {g : Handler (Callback α)} : g ∈ (s.pushModal stage actor grab actionMode).emitters.handlers y ↔
      g ∈ s.emitters.handlers y ∨
        y = actor ∧ g = ⟨s.emitters.nextId, "destroy", false, .actor grab⟩ ∨
        s.keyFocus = some y ∧ g = ⟨s.emitters.nextId + 1, "destroy", false, .prevFocus y⟩ := by
  rw [State.pushModal]
  cases hfocus : s.keyFocus with
  | none =>
    refine Emitters.mem_handlers_connect.trans ?_
    simp
  | some f =>
    refine Emitters.mem_handlers_connect.trans ?_
    rw [Emitters.mem_handlers_connect, or_assoc]
    apply or_congr_right
    apply or_congr_right
    constructor
    · rintro ⟨rfl, rfl⟩
      exact ⟨rfl, rfl⟩
    · rintro ⟨hf, rfl⟩
      cases hf
      exact ⟨rfl, rfl⟩

/-- **A grab is pushed.** -/
theorem Inv.pushModal (h : Inv s) (stage actor : α) (actionMode : Option ℕ)
    (hgrab : s.fromGrab grab = []) : Inv (s.pushModal stage actor grab actionMode) := by
  rw [fromGrab_eq_nil] at hgrab
  have hstack := pushModal_stack stage s actor grab actionMode
  have hmem : ∀ y g, g ∈ (s.pushModal stage actor grab actionMode).emitters.handlers y ↔ _ :=
    fun y g => pushModal_handlers stage
  have hempty : s.modalCount = 0 ↔ s.stack = [] := by
    rw [h.modalCount, Int.natCast_eq_zero, List.length_eq_zero_iff]
  refine ⟨?_, ?_, ?_, ?_, ?_, ?_, ?_, ?_, ?_, ?_, ?_⟩
  · rw [State.pushModal]
    cases s.keyFocus with
    | none => exact h.sound.connect ..
    | some f => exact (h.sound.connect ..).connect ..
  · intro y g hg
    rcases (hmem y g).mp hg with hg | ⟨-, rfl⟩ | ⟨-, rfl⟩
    · exact h.normal y g hg
    · exact ⟨rfl, rfl⟩
    · exact ⟨rfl, rfl⟩
  · intro r hr
    rw [hstack] at hr
    rcases List.mem_append.mp hr with hr | hr
    · obtain ⟨g, hg, hid, hc⟩ := h.actor r hr
      exact ⟨g, (hmem _ g).mpr (.inl hg), hid, hc⟩
    · rw [List.mem_singleton.mp hr]
      exact ⟨_, (hmem _ _).mpr (.inr (.inl ⟨rfl, rfl⟩)), rfl, rfl⟩
  · intro y g hg grab' hc
    rw [hstack]
    rcases (hmem y g).mp hg with hg | ⟨rfl, rfl⟩ | ⟨-, rfl⟩
    · obtain ⟨r, hr, htag⟩ := h.ofActor y g hg grab' hc
      exact ⟨r, List.mem_append_left _ hr, htag⟩
    · cases hc
      exact ⟨_, List.mem_append_right _ List.mem_cons_self, rfl⟩
    · cases hc
  · intro w hw y hy
    rw [hstack, List.map_append] at hw
    rcases List.mem_append.mp hw with hw | hw
    · obtain ⟨g, hg, hid, hc⟩ := h.prevFocus w hw y hy
      exact ⟨g, (hmem y g).mpr (.inl hg), hid, hc⟩
    · rw [List.map_singleton, List.mem_singleton] at hw
      rw [hw] at hy ⊢
      have hfocus : s.keyFocus = some y := hy
      refine ⟨_, (hmem y _).mpr (.inr (.inr ⟨hfocus, rfl⟩)), ?_, rfl⟩
      rw [Record.watch, hfocus]
      rfl
  · intro y g hg z hc
    rcases (hmem y g).mp hg with hg | ⟨-, rfl⟩ | ⟨-, rfl⟩
    · exact h.ofPrevFocus y g hg z hc
    · cases hc
    · cases hc
      rfl
  · rw [hstack, List.map_append, List.map_singleton, List.nodup_append]
    refine ⟨h.grabs, List.nodup_singleton _, fun g hg g' hg' heq => ?_⟩
    obtain ⟨r, hr, rfl⟩ := List.mem_map.mp hg
    exact hgrab r hr (heq.trans (List.mem_singleton.mp hg'))
  · rw [hstack, List.map_append, List.filterMap_append, List.pairwise_append]
    refine ⟨h.ordered, ?_, fun id hid id' hid' => ?_⟩
    · rw [List.map_singleton]
      cases hfocus : s.keyFocus with
      | none => exact .nil
      | some f => exact List.pairwise_singleton _ _
    · obtain ⟨w, hw, hwid⟩ := List.mem_filterMap.mp hid
      obtain ⟨y, hy, hid⟩ := Option.bind_eq_some_iff.mp hwid
      obtain ⟨g, hg, heq, -⟩ := h.prevFocus w hw y hy
      cases heq.symm.trans hid
      have hlt := h.sound.fresh y g hg
      obtain ⟨w', hw', hwid'⟩ := List.mem_filterMap.mp hid'
      rw [List.map_singleton, List.mem_singleton] at hw'
      obtain ⟨z, hz, hid'⟩ := Option.bind_eq_some_iff.mp hwid'
      have hfocus : s.keyFocus = some z := by
        rw [hw'] at hz
        exact hz
      rw [hw', Record.watch, hfocus] at hid'
      cases hid'
      exact Nat.lt_succ_of_lt hlt
  · show s.modalCount + 1 = _
    rw [hstack, List.length_append, List.length_singleton]
    have := h.modalCount
    omega
  · rw [if_neg (by rw [hstack]; exact List.concat_ne_nil _ _)]
    have hdisabled := h.unredirectDisabled
    have hafter : (s.pushModal stage actor grab actionMode).unredirectDisabled =
        if s.modalCount = 0 then s.unredirectDisabled + 1 else s.unredirectDisabled := rfl
    rw [hafter, hdisabled]
    by_cases hnil : s.stack = []
    · rw [if_pos (hempty.mpr hnil), if_pos hnil]
      rfl
    · rw [if_neg fun hc => hnil (hempty.mp hc), if_neg hnil]
  · rw [hstack, under_concat]
    have hbottom := h.bottom
    cases hcases : s.stack with
    | nil =>
      rw [hcases] at hbottom
      exact hbottom
    | cons r rs =>
      rw [hcases] at hbottom
      exact hbottom

/-! ## Destruction -/

theorem map_tag_clearPrevFocus (x : α) (rs : List (Record α)) :
    (State.clearPrevFocus x rs).map Record.tag = rs.map Record.tag := by
  induction rs with
  | nil => rfl
  | cons r rs ih =>
    rw [State.clearPrevFocus]
    split
    · rfl
    · rw [List.map_cons, List.map_cons, ih]

theorem mem_watch_clearPrevFocus {w : Option α × Option ℕ}
    (hw : w ∈ (State.clearPrevFocus x rs).map Record.watch) (hy : w.1 = some y) :
    w ∈ rs.map Record.watch := by
  induction rs with
  | nil => exact hw
  | cons r rs ih =>
    rw [State.clearPrevFocus] at hw
    split at hw
    · rcases List.mem_cons.mp hw with rfl | hw
      · cases hy
      · exact List.mem_cons_of_mem _ hw
    · rcases List.mem_cons.mp hw with rfl | hw
      · exact List.mem_cons_self
      · exact List.mem_cons_of_mem _ (ih hw)

theorem filterMap_clearPrevFocus (x : α) (rs : List (Record α)) :
    List.Sublist (((State.clearPrevFocus x rs).map Record.watch).filterMap watchedId)
      ((rs.map Record.watch).filterMap watchedId) := by
  induction rs with
  | nil => exact List.Sublist.refl _
  | cons r rs ih =>
    rw [State.clearPrevFocus]
    split
    · rw [List.map_cons, List.map_cons]
      have hnone : watchedId (Record.watch { r with prevFocus := none }) = none := rfl
      rw [List.filterMap_cons_none hnone]
      exact (List.sublist_cons_self _ _).filterMap watchedId
    · rw [List.map_cons, List.map_cons]
      cases hid : watchedId r.watch with
      | none =>
        rw [List.filterMap_cons_none hid, List.filterMap_cons_none hid]
        exact ih
      | some id =>
        rw [List.filterMap_cons_some hid, List.filterMap_cons_some hid]
        exact ih.cons_cons id

/-- The first record that is found is the one with the lowest handler, so that the handler of what
the others watch is a later one. Induction on the records. -/
theorem lt_of_mem_clearPrevFocus {w : Option α × Option ℕ} (id : ℕ)
    (hordered : ((rs.map Record.watch).filterMap watchedId).Pairwise (· < ·))
    (hlow : ∀ w ∈ rs.map Record.watch, w.1 = some x → ∃ id', w.2 = some id' ∧ id ≤ id')
    (hw : w ∈ (State.clearPrevFocus x rs).map Record.watch) (hx : w.1 = some x) :
    ∃ id', w.2 = some id' ∧ id < id' := by
  induction rs with
  | nil => cases hw
  | cons r rs ih =>
    rw [State.clearPrevFocus] at hw
    split at hw
    · rename_i hr
      rcases List.mem_cons.mp hw with rfl | hw
      · cases hx
      · obtain ⟨id₁, hid₁, hle⟩ := hlow r.watch List.mem_cons_self hr
        obtain ⟨id₂, hid₂, -⟩ := hlow w (List.mem_cons_of_mem _ hw) hx
        have hfirst : watchedId r.watch = some id₁ := by
          rw [watchedId, show r.watch.1 = some x from hr, hid₁]
          rfl
        have hlater : id₂ ∈ (rs.map Record.watch).filterMap watchedId :=
          List.mem_filterMap.mpr ⟨w, hw, by rw [watchedId, hx, hid₂]; rfl⟩
        rw [List.map_cons, List.filterMap_cons_some hfirst, List.pairwise_cons] at hordered
        exact ⟨id₂, hid₂, lt_of_le_of_lt hle (hordered.1 id₂ hlater)⟩
    · rename_i hr
      rcases List.mem_cons.mp hw with rfl | hw
      · exact absurd hx hr
      · have hrest : ((rs.map Record.watch).filterMap watchedId).Pairwise (· < ·) := by
          refine hordered.sublist ?_
          rw [List.map_cons]
          exact (List.sublist_cons_self _ _).filterMap watchedId
        exact ih hrest (fun w hw => hlow w (List.mem_cons_of_mem _ hw)) hw

theorem Inv.clearPrevFocus (h : Inv s) (x : α) :
    Inv { s with stack := State.clearPrevFocus x s.stack } := by
  have htags := map_tag_clearPrevFocus x s.stack
  have hlength : (State.clearPrevFocus x s.stack).length = s.stack.length := by
    have := congrArg List.length htags
    rw [List.length_map, List.length_map] at this
    exact this
  refine ⟨h.sound, h.normal, ?_, ?_, ?_, h.ofPrevFocus, ?_, ?_, ?_, ?_, ?_⟩
  · intro r hr
    have htag := List.mem_map_of_mem (f := Record.tag) hr
    rw [htags] at htag
    obtain ⟨r', hr', heq⟩ := List.mem_map.mp htag
    obtain ⟨hactor, hrest⟩ := Prod.mk.inj heq
    obtain ⟨hgrab, hid⟩ := Prod.mk.inj hrest
    rw [← hactor, ← hgrab, ← hid]
    exact h.actor r' hr'
  · intro y g hg grab hc
    have hleft : (y, grab, g.id) ∈ (State.clearPrevFocus x s.stack).map Record.tag := by
      obtain ⟨r, hr, htag⟩ := h.ofActor y g hg grab hc
      rw [htags, ← htag]
      exact List.mem_map_of_mem hr
    exact List.mem_map.mp hleft
  · intro w hw y hy
    exact h.prevFocus w (mem_watch_clearPrevFocus hw hy) y hy
  · have hgrabs : (State.clearPrevFocus x s.stack).map Record.grab = s.stack.map Record.grab := by
      have hmap := congrArg (List.map fun w : α × ℕ × ℕ => w.2.1) htags
      rw [List.map_map, List.map_map] at hmap
      exact hmap
    rw [show ({ s with stack := State.clearPrevFocus x s.stack } : State α).stack.map Record.grab =
      s.stack.map Record.grab from hgrabs]
    exact h.grabs
  · exact h.ordered.sublist (filterMap_clearPrevFocus x s.stack)
  · show s.modalCount = ((State.clearPrevFocus x s.stack).length : ℤ)
    rw [hlength]
    exact h.modalCount
  · show s.unredirectDisabled = if State.clearPrevFocus x s.stack = [] then 0 else 1
    have hnil : s.stack = [] ↔ State.clearPrevFocus x s.stack = [] := by
      rw [← List.length_eq_zero_iff, ← hlength, List.length_eq_zero_iff]
    rw [h.unredirectDisabled]
    exact if_congr hnil rfl rfl
  · have hbottom := h.bottom
    show (under s.top (State.clearPrevFocus x s.stack)).2 = modeNormal
    cases hstack : s.stack with
    | nil =>
      rw [hstack] at hbottom
      exact hbottom
    | cons r rs =>
      rw [hstack] at hbottom
      rw [State.clearPrevFocus]
      split
      · exact hbottom
      · exact hbottom

/-! ### The layers without the actor -/

def SameBut (x : α) (r r' : Record α) : Prop :=
  r'.grab = r.grab ∧ r'.actor = r.actor ∧ forget x r'.prevFocus = forget x r.prevFocus ∧
    r'.actionMode = r.actionMode

theorem sameBut_clearPrevFocus (x : α) (rs : List (Record α)) :
    List.Forall₂ (SameBut x) rs (State.clearPrevFocus x rs) := by
  induction rs with
  | nil => exact .nil
  | cons r rs ih =>
    rw [State.clearPrevFocus]
    split
    · rename_i hfocus
      refine .cons ⟨rfl, rfl, ?_, rfl⟩ ?_
      · rw [hfocus, forget, forget, if_pos rfl]
        rfl
      · exact List.forall₂_same.mpr fun r _ => ⟨rfl, rfl, rfl, rfl⟩
    · exact .cons ⟨rfl, rfl, rfl, rfl⟩ ih

/-- Without the actor they stand for the same layers. Induction on the records. -/
theorem destroy_layersOf {top' : Option α × ℕ} {rs rs' : List (Record α)}
    (h : List.Forall₂ (SameBut x) rs rs') (hfocus : forget x top'.1 = forget x top.1)
    (hmode : top'.2 = top.2) : (Layers.mk (under top' rs').1 (layersOf top' rs')).destroy x =
        (Layers.mk (under top rs).1 (layersOf top rs)).destroy x ∧
      (under top' rs').2 = (under top rs).2 := by
  induction h with
  | nil =>
    refine ⟨?_, hmode⟩
    rw [Layers.destroy, Layers.destroy]
    dsimp only
    rw [under, under, hfocus]
    rfl
  | cons hr _ ih =>
    obtain ⟨hgrab, hactor, hprev, hsaved⟩ := hr
    obtain ⟨hlayers, hunder⟩ := ih
    rw [Layers.destroy, Layers.destroy, Layers.mk.injEq] at hlayers ⊢
    refine ⟨⟨hprev, ?_⟩, hsaved⟩
    rw [layersOf, layersOf, List.filter_cons, List.filter_cons]
    dsimp only
    rw [hactor]
    split
    · rw [List.map_cons, List.map_cons, hlayers.2]
      dsimp only
      rw [hgrab, hlayers.1, hunder]
    · exact hlayers.2

theorem destroy_of_not (htop : top.1 ≠ some x) (h : ∀ r ∈ rs, r.actor ≠ x ∧ r.prevFocus ≠ some x) :
    (Layers.mk (under top rs).1 (layersOf top rs)).destroy x =
      Layers.mk (under top rs).1 (layersOf top rs) := by
  have hunder : ∀ rs : List (Record α), (∀ r ∈ rs, r.actor ≠ x ∧ r.prevFocus ≠ some x) →
      forget x (under top rs).1 = (under top rs).1 := by
    intro rs hrs
    cases rs with
    | nil => exact if_neg htop
    | cons r rs => exact if_neg (hrs r List.mem_cons_self).2
  rw [Layers.destroy, hunder rs h]
  congr 1
  induction rs with
  | nil => rfl
  | cons r rs ih =>
    obtain ⟨hr, hrs⟩ := List.forall_mem_cons.mp h
    rw [layersOf, List.filter_cons, if_pos (by simpa using hr.1), List.map_cons, ih hrs]
    dsimp only
    rw [hunder rs hrs]

/-! ### The emission -/

def CallKept (s : State α) : Callback α → Prop
  | .actor grab => Uniform (s.fromGrab grab).tail
  | .prevFocus _ => True

instance (s : State α) (c : Callback α) : Decidable (CallKept s c) := by
  cases c <;> unfold CallKept <;> infer_instance

/-- What is so while `x` is destroyed, and `calls` are still to be called: without the actor the
layers are what they were, and there is a call for every record that has to do with the actor. -/
structure Destroying (s : State α) (x : α) (calls : List (Handler (Callback α))) (s' : State α) :
    Prop extends Inv s' where
  layers : s'.layers.destroy x = s.layers.destroy x
  subset : ∀ g ∈ s'.emitters.handlers x, g ∈ s.emitters.handlers x
  known : ∀ g ∈ calls, g ∈ s.emitters.handlers x
  later : (calls.map Handler.id).Pairwise (· < ·)
  actors : ∀ r ∈ s'.stack, r.actor = x → r.destroyId ∈ calls.map Handler.id
  watched : ∀ w ∈ s'.stack.map Record.watch, w.1 = some x →
    ∃ id, w.2 = some id ∧ id ∈ calls.map Handler.id

theorem destroy_pop (l : Layers α) (h : ∀ layer ∈ l.layers, layer.grab = grab → layer.actor = x) :
    (l.pop grab).destroy x = l.destroy x := by
  rw [Layers.pop, Layers.destroy, Layers.destroy, List.filter_filter]
  congr 2
  apply List.filter_congr
  intro layer hlayer
  by_cases hgrab : layer.grab = grab
  · simp [h layer hlayer hgrab]
  · simp [hgrab]

omit [DecidableEq α] in
theorem fromGrab_of_mem (hmem : r ∈ s.stack) : ∃ r' above, s.fromGrab r.grab = r' :: above := by
  cases hfrom : s.fromGrab r.grab with
  | nil => exact absurd rfl (fromGrab_eq_nil.mp hfrom r hmem)
  | cons r' above => exact ⟨r', above, rfl⟩

omit [DecidableEq α] in
theorem exists_record_of_layer {layer : Layer α}
    (hlayer : layer ∈ layersOf top rs) : ∃ r ∈ rs, r.grab = layer.grab ∧ r.actor = layer.actor := by
  induction rs generalizing top with
  | nil => exact absurd hlayer List.not_mem_nil
  | cons r rs ih =>
    rcases List.mem_cons.mp hlayer with rfl | hlayer
    · exact ⟨r, List.mem_cons_self, rfl, rfl⟩
    · obtain ⟨r', hr', hsame⟩ := ih hlayer
      exact ⟨r', List.mem_cons_of_mem _ hr', hsame⟩

variable {s' : State α} {g : Handler (Callback α)} {calls : List (Handler (Callback α))}

theorem Destroying.later_actor (h : Destroying s x (g :: calls) s') (hg : g ∈ s'.emitters.handlers x)
    (hr : r ∈ s'.stack) (hx : r.actor = x) :
    g.callback = .actor r.grab ∨ r.destroyId ∈ calls.map Handler.id := by
  rcases List.mem_cons.mp (h.actors r hr hx) with hsame | hmem
  · subst hx
    exact .inl (h.callback_actor hr hg hsame.symm)
  · exact .inr hmem

theorem Destroying.call_actor (h : Destroying s x (g :: calls) s') (hg : g ∈ s'.emitters.handlers x)
    (hc : g.callback = .actor grab) (hkept : CallKept s' (.actor grab)) :
    Destroying s x calls (s'.call (.actor grab)) := by
  obtain ⟨r, hr, htag⟩ := h.ofActor x g hg grab hc
  obtain ⟨hactor, hrest⟩ := Prod.mk.inj htag
  obtain ⟨rfl, hid⟩ := Prod.mk.inj hrest
  obtain ⟨r', above, hfrom⟩ := fromGrab_of_mem hr
  have hcall : s'.call (.actor r.grab) = (s'.popModal r.grab).1 :=
    if_neg (by rw [hfrom]; exact List.cons_ne_nil _ _)
  have hlater := h.later
  rw [List.map_cons, List.pairwise_cons] at hlater
  rw [hcall]
  refine ⟨h.toInv.popModal hfrom, ?_, ?_, fun g' hg' => h.known g' (List.mem_cons_of_mem _ hg'),
    hlater.2, ?_, ?_⟩
  · have huniform : Uniform above := by
      rw [CallKept, hfrom] at hkept
      exact hkept
    rw [(State.layers_popModal hfrom h.grabs h.modalCount h.bottom).mpr huniform, ← h.layers]
    apply destroy_pop
    intro layer hlayer heq
    -- the layer of the grab is the one of the actor
    obtain ⟨r'', hr'', hgrab'', hactor''⟩ := exists_record_of_layer hlayer
    have hsame : r'' = r := List.inj_on_of_nodup_map h.grabs hr'' hr (hgrab''.trans heq)
    rw [← hactor'', hsame]
    exact hactor
  · intro g' hg'
    rw [popModal_handlers hfrom rfl] at hg'
    exact h.subset g' hg'.1
  · intro r'' hr'' hx
    -- a record that is left, so another one
    obtain ⟨r₀, hr₀, heq, hne⟩ := h.toInv.exists_tag hfrom hr''
    obtain ⟨hactor₀, hrest₀⟩ := Prod.mk.inj heq
    obtain ⟨-, hid₀⟩ := Prod.mk.inj hrest₀
    rw [← hid₀]
    rcases h.later_actor hg hr₀ (hactor₀.trans hx) with hcallback | hmem
    · exact absurd (Callback.actor.inj (hcallback.symm.trans hc)) hne
    · exact hmem
  · intro w hw hx
    rw [(popModal_stack hfrom).2] at hw
    have hw' := (List.dropLast_sublist _).subset hw
    obtain ⟨id, hid', hmem⟩ := h.watched w hw' hx
    refine ⟨id, hid', ?_⟩
    rcases List.mem_cons.mp hmem with rfl | hmem
    · obtain ⟨g₀, hg₀, hgid, hgc⟩ := h.prevFocus w hw' x hx
      have hsame : g₀ = g := h.sound.eq_of_id hg₀ hg (Option.some.inj (hgid.symm.trans hid'))
      rw [hsame, hc] at hgc
      cases hgc
    · exact hmem

theorem Destroying.call_prevFocus (h : Destroying s x (g :: calls) s')
    (hg : g ∈ s'.emitters.handlers x) (hc : g.callback = .prevFocus x) :
    Destroying s x calls (s'.call (.prevFocus x)) := by
  have hlater := h.later
  rw [List.map_cons, List.pairwise_cons] at hlater
  refine ⟨h.toInv.clearPrevFocus x, ?_, h.subset, fun g' hg' => h.known g' (List.mem_cons_of_mem _ hg'),
    hlater.2, ?_, ?_⟩
  · rw [← h.layers]
    exact (destroy_layersOf (sameBut_clearPrevFocus x s'.stack) rfl rfl).1
  · intro r hr hx
    have htag := List.mem_map_of_mem (f := Record.tag) hr
    rw [show (s'.call (.prevFocus x)).stack = State.clearPrevFocus x s'.stack from rfl,
      map_tag_clearPrevFocus] at htag
    obtain ⟨r₀, hr₀, heq⟩ := List.mem_map.mp htag
    obtain ⟨hactor₀, hrest₀⟩ := Prod.mk.inj heq
    obtain ⟨-, hid₀⟩ := Prod.mk.inj hrest₀
    rw [← hid₀]
    rcases h.later_actor hg hr₀ (hactor₀.trans hx) with hcallback | hmem
    · cases hcallback.symm.trans hc
    · exact hmem
  · intro w hw hx
    -- the ids of the handlers that are still to be called are greater
    obtain ⟨id, hid, hlt⟩ := lt_of_mem_clearPrevFocus g.id h.ordered (by
      intro w hw hx
      obtain ⟨id, hid, hmem⟩ := h.watched w hw hx
      refine ⟨id, hid, ?_⟩
      rcases List.mem_cons.mp hmem with rfl | hmem
      · exact le_rfl
      · exact le_of_lt (hlater.1 id hmem)) hw hx
    obtain ⟨id', hid', hmem⟩ := h.watched w (mem_watch_clearPrevFocus hw hx) hx
    cases hid.symm.trans hid'
    refine ⟨id, hid, ?_⟩
    rcases List.mem_cons.mp hmem with rfl | hmem
    · exact absurd hlt (Nat.lt_irrefl _)
    · exact hmem

/-- **Step lemma.** One handler is called. -/
theorem Destroying.call (h : Destroying s x (g :: calls) s') (hg : g ∈ s'.emitters.handlers x)
    (hkept : CallKept s' g.callback) : Destroying s x calls (s'.call g.callback) := by
  cases hc : g.callback with
  | actor grab =>
    rw [hc] at hkept
    exact h.call_actor hg hc hkept
  | prevFocus z =>
    obtain rfl : z = x := h.ofPrevFocus x g hg z hc
    exact h.call_prevFocus hg hc

omit [DecidableEq α] in
theorem Inv.emission_eq (h : Inv s) (x : α) :
    s.emitters.emission x "destroy" = s.emitters.handlers x := by
  have hname : (s.emitters.handlers x).filter (·.signalName = "destroy") = s.emitters.handlers x :=
    List.filter_eq_self.mpr fun g hg => decide_eq_true (h.normal x g hg).1
  have hafter : (s.emitters.handlers x).filter (·.after) = [] := by
    rw [List.filter_eq_nil_iff]
    intro g hg hc
    rw [(h.normal x g hg).2] at hc
    exact Bool.false_ne_true hc
  have hbefore : (s.emitters.handlers x).filter (!·.after) = s.emitters.handlers x := by
    rw [List.filter_eq_self]
    intro g hg
    rw [(h.normal x g hg).2]
    rfl
  rw [Emitters.emission, hname, hafter, hbefore, List.append_nil]

/-- **An actor is destroyed.** -/
theorem Inv.destroy (h : Inv s) (x : α) (hkept : CallsAllowed State.emitters State.call CallKept x
      (s.emitters.emission x "destroy") s) :
    Inv (s.destroy x) ∧ (s.destroy x).layers = s.layers.destroy x := by
  have hend : Destroying s x []
      (callAll State.emitters State.call x (s.emitters.emission x "destroy") s) := by
    apply callAll_allowed_rule (I := fun calls s' => Destroying s x calls s') hkept
    · rw [h.emission_eq]
      refine ⟨h, rfl, fun _ => id, fun _ => id, h.sound.ordered x, fun r hr hx => ?_,
        fun w hw hx => ?_⟩
      · obtain ⟨g, hg, hid, -⟩ := h.actor r hr
        rw [← hid, ← hx]
        exact List.mem_map_of_mem hg
      · obtain ⟨g, hg, hid, -⟩ := h.prevFocus w hw x hx
        exact ⟨g.id, hid, List.mem_map_of_mem hg⟩
    · rintro g calls s' hs' ⟨g', hg', hid⟩ hok
      have heq : g' = g :=
        h.sound.eq_of_id (hs'.subset g' hg') (hs'.known g List.mem_cons_self) hid
      exact hs'.call (heq ▸ hg') hok
    · intro g calls s' hs' hgone
      have hlater := hs'.later
      rw [List.map_cons, List.pairwise_cons] at hlater
      refine ⟨hs'.toInv, hs'.layers, hs'.subset,
        fun g' hg' => hs'.known g' (List.mem_cons_of_mem _ hg'), hlater.2, fun r hr hx => ?_,
        fun w hw hx => ?_⟩
      · rcases List.mem_cons.mp (hs'.actors r hr hx) with heq | hmem
        · obtain ⟨g', hg', hid, -⟩ := hs'.actor r hr
          exact absurd (hid.trans heq) (hgone g' (hx ▸ hg'))
        · exact hmem
      · obtain ⟨id, hid, hmem⟩ := hs'.watched w hw hx
        refine ⟨id, hid, ?_⟩
        rcases List.mem_cons.mp hmem with rfl | hmem
        · obtain ⟨g', hg', hid', -⟩ := hs'.prevFocus w hw x hx
          exact absurd (Option.some.inj (hid'.symm.trans hid)) (hgone g' hg')
        · exact hmem
  rw [State.destroy, emit]
  generalize callAll State.emitters State.call x (s.emitters.emission x "destroy") s = s' at hend ⊢
  -- no record has to do with the actor any more
  have hnone : ∀ r ∈ s'.stack, r.actor ≠ x ∧ r.prevFocus ≠ some x := by
    intro r hr
    refine ⟨fun hx => absurd (hend.actors r hr hx) List.not_mem_nil, fun hx => ?_⟩
    obtain ⟨id, -, hmem⟩ := hend.watched r.watch (List.mem_map_of_mem hr) hx
    cases hmem
  rw [← hend.layers]
  by_cases hfocus : s'.keyFocus = some x
  · rw [if_pos hfocus]
    refine ⟨hend.toInv.setKeyFocus none, ?_⟩
    have hsame : (s'.setKeyFocus none).layers.destroy x = s'.layers.destroy x := by
      have hall : List.Forall₂ (SameBut x) s'.stack s'.stack :=
        List.forall₂_same.mpr fun r _ => ⟨rfl, rfl, rfl, rfl⟩
      have hforget : forget x (s'.setKeyFocus none).top.1 = forget x s'.top.1 := by
        show forget x none = forget x s'.keyFocus
        rw [hfocus, forget, forget, if_pos rfl]
        rfl
      exact (destroy_layersOf hall hforget rfl).1
    rw [← hsame]
    exact (destroy_of_not (Option.some_ne_none x).symm hnone).symm
  · rw [if_neg hfocus]
    exact ⟨hend.toInv, (destroy_of_not hfocus hnone).symm⟩

/-! ## Runs -/

/-- The call may be made: a grab that is popped, by the call or because its actor is destroyed,
finds the records above it to have saved the same focus and mode. -/
def Kept (s : State α) : Op α → Prop
  | .popModal grab => Uniform (s.fromGrab grab).tail
  | .destroy x =>
    CallsAllowed State.emitters State.call CallKept x (s.emitters.emission x "destroy") s
  | _ => True

instance (s : State α) (op : Op α) : Decidable (Kept s op) := by
  cases op <;> unfold Kept <;> infer_instance

/-- **Step lemma.** One case for each call. -/
theorem Inv.step (h : Inv s) {stage : α} {op : Op α} {s' : State α} (hkept : Kept s op)
    (hstep : step stage s op = some s') : Inv s' ∧ s'.layers = s.layers.step stage op := by
  cases op with
  | pushModal actor grab actionMode =>
    rw [ModalStack.step] at hstep
    split at hstep
    · rename_i hgrab
      cases hstep
      exact ⟨h.pushModal stage actor actionMode hgrab, State.layers_pushModal ..⟩
    · cases hstep
  | popModal grab =>
    rw [ModalStack.step] at hstep
    split at hstep
    · cases hstep
    · rename_i hgrab
      cases hstep
      obtain ⟨r, above, hfrom⟩ := List.exists_cons_of_ne_nil hgrab
      rw [Kept, hfrom] at hkept
      exact ⟨h.popModal hfrom,
        (State.layers_popModal hfrom h.grabs h.modalCount h.bottom).mpr hkept⟩
  | setKeyFocus keyFocus =>
    cases hstep
    exact ⟨h.setKeyFocus keyFocus, State.layers_setKeyFocus ..⟩
  | destroy x =>
    cases hstep
    exact h.destroy x hkept

structure Restores (s : State α) (l : Layers α) : Prop where
  modalCount : s.modalCount = s.stack.length
  unredirectDisabled : s.unredirectDisabled = if 0 < s.modalCount then 1 else 0
  grabs : s.stack.map Record.grab = l.layers.map Layer.grab
  keyFocus : s.keyFocus = l.keyFocus
  actionMode : s.actionMode = l.actionMode
  /-- After the last grab the focus is the one before the first, and the mode is `NORMAL`. -/
  bottom : s.stack = [] → s.keyFocus = l.base ∧ s.actionMode = modeNormal

omit [DecidableEq α] in
theorem Inv.restores (h : Inv s) : Restores s s.layers where
  modalCount := h.modalCount
  unredirectDisabled := by
    rw [h.unredirectDisabled, h.modalCount]
    by_cases hnil : s.stack = []
    · rw [if_pos hnil, hnil]
      rfl
    · have := List.length_pos_iff.mpr hnil
      rw [if_neg hnil, if_pos (by omega)]
  grabs := map_grab_layersOf.symm
  keyFocus := s.keyFocus_layers.symm
  actionMode := (State.actionMode_layers h.bottom).symm
  bottom hnil := by
    have hbottom := h.bottom
    rw [hnil] at hbottom
    rw [State.layers, hnil]
    exact ⟨rfl, hbottom⟩

/-- **Whole runs.** Induction on the calls. -/
theorem Inv.run (h : Inv s) (stage : α) (ops : List (Op α)) {t : State α}
    (hkept : Runs.Allowed (ModalStack.step stage) Kept s ops)
    (hrun : Runs.run (ModalStack.step stage) s ops = some t) :
    Inv t ∧ t.layers = s.layers.run stage ops := by
  induction ops generalizing s with
  | nil =>
    cases hrun
    exact ⟨h, rfl⟩
  | cons op ops ih =>
    obtain ⟨hop, hops⟩ := hkept
    obtain ⟨s', hstep, hrest⟩ := Option.bind_eq_some_iff.mp hrun
    obtain ⟨hs', hlayers⟩ := h.step hop hstep
    obtain ⟨ht, hfinal⟩ := ih hs' (hops s' hstep) hrest
    refine ⟨ht, ?_⟩
    rw [hfinal, hlayers]
    rfl

/-- **The focus and the mode are restored.** After calls for which every grab that is popped finds
the records above it to have saved the same, the count, the focus and the mode are those of the
layers that these calls leave. -/
theorem run_layers (stage : α) (keyFocus : Option α) (ops : List (Op α)) {t : State α}
    (hkept : Runs.Allowed (step stage) Kept (State.new keyFocus) ops)
    (hrun : Runs.run (step stage) (State.new keyFocus) ops = some t) :
    Restores t (Layers.run stage ops ⟨keyFocus, []⟩) := by
  obtain ⟨ht, hlayers⟩ := (Inv.new keyFocus).run stage ops hkept hrun
  have hrestores := ht.restores
  rw [hlayers] at hrestores
  exact hrestores

/-- **As if it had never been pushed.** For such calls a grab can be left out that was pushed and
popped, with the changes of the focus while it was on top. -/
theorem run_without (stage : α) (keyFocus : Option α) (before between after : List (Op α))
    (actor : α) (grab : ℕ) (actionMode : Option ℕ) {t : State α}
    (hbetween : ∀ op ∈ between, ¬ Layers.Op.uses grab op)
    (hkept : Runs.Allowed (step stage) Kept (State.new keyFocus)
      (before ++ .pushModal actor grab actionMode :: (between ++ .popModal grab :: after)))
    (hrun : Runs.run (step stage) (State.new keyFocus)
      (before ++ .pushModal actor grab actionMode :: (between ++ .popModal grab :: after)) = some t) :
    Restores t (Layers.run stage (before ++ Layers.without stage grab
      ((Layers.run stage before ⟨keyFocus, []⟩).push (Layers.layer stage actor grab actionMode))
      between ++ after) ⟨keyFocus, []⟩) := by
  obtain ⟨ht, hfinal⟩ := (Inv.new keyFocus).run stage _ hkept hrun
  have hrestores := ht.restores
  rw [hfinal] at hrestores
  change Restores t (Layers.run stage _ ⟨keyFocus, []⟩) at hrestores
  rw [Runs.run_append] at hrun
  obtain ⟨s, hbefore, hrest⟩ := Option.bind_eq_some_iff.mp hrun
  obtain ⟨-, hlayers⟩ := (Inv.new keyFocus).run stage before hkept.of_append hbefore
  -- the grab is a new one
  have hnew : ∀ layer ∈ s.layers.layers, layer.grab ≠ grab := by
    obtain ⟨s', hpush, -⟩ := Option.bind_eq_some_iff.mp hrest
    rw [step] at hpush
    split at hpush
    · rename_i hgrab
      intro layer hlayer
      have hmem := List.mem_map_of_mem (f := Layer.grab) hlayer
      rw [State.layers, map_grab_layersOf] at hmem
      obtain ⟨r, hr, heq⟩ := List.mem_map.mp hmem
      rw [← heq]
      exact fromGrab_eq_nil.mp hgrab r hr
    · cases hpush
  have hlayers : s.layers = Layers.run stage before ⟨keyFocus, []⟩ := hlayers
  have hpopped : ((s.layers.push (Layers.layer stage actor grab actionMode)).pop grab) = s.layers :=
    Layers.pop_push_self hnew
  have hwithout := Layers.run_pop stage between
    (s.layers.push (Layers.layer stage actor grab actionMode)) hbetween
  rw [hpopped, hlayers] at hwithout
  have hruns : Layers.run stage
      (before ++ .pushModal actor grab actionMode :: (between ++ .popModal grab :: after))
      ⟨keyFocus, []⟩ = Layers.run stage after (Layers.pop (Layers.run stage between
        ((Layers.run stage before ⟨keyFocus, []⟩).push
          (Layers.layer stage actor grab actionMode))) grab) := by
    rw [Layers.run, List.foldl_append, List.foldl_cons, List.foldl_append, List.foldl_cons]
    rfl
  rw [hruns, hwithout] at hrestores
  rw [Layers.run, List.foldl_append, List.foldl_append]
  exact hrestores

theorem run_without_between : ∃ t, Runs.run (step 9) (State.new (some 5))
      ([.pushModal 1 11 (some 4)] ++ .pushModal 2 12 none ::
        ([.setKeyFocus (some 7), .pushModal 3 13 none, .popModal 13] ++ .popModal 12 :: [])) = some t ∧
    Restores t (Layers.run 9 [.pushModal 1 11 (some 4), .pushModal 3 13 none, .popModal 13]
      ⟨some 5, []⟩) :=
  ⟨_, rfl, run_without 9 (some 5) [.pushModal 1 11 (some 4)]
    [.setKeyFocus (some 7), .pushModal 3 13 none, .popModal 13] [] 2 12 none
    (by simp [Layers.Op.uses]) (by decide) rfl⟩

def middlePop : List (Op ℕ) :=
  [.pushModal 1 11 (some 4), .pushModal 2 12 none, .pushModal 3 13 none, .popModal 12, .destroy 1,
    .popModal 13]

theorem run_layers_middlePop : ∃ t, Runs.run (step 9) (State.new (some 5)) middlePop = some t ∧
    Restores t (Layers.run 9 middlePop ⟨some 5, []⟩) :=
  ⟨_, rfl, run_layers 9 (some 5) middlePop (by decide) rfl⟩

def fourGrabs : List (Op ℕ) :=
  [.pushModal 1 11 none, .pushModal 2 12 none, .pushModal 3 13 none, .pushModal 4 14 none,
    .popModal 12, .popModal 14]

/-- The focus is then on actor 2, whose grab was popped, and not on actor 3, which is on top. -/
theorem not_run_layers : ¬ ∀ (keyFocus : Option ℕ) (ops : List (Op ℕ)) (t : State ℕ),
      Runs.run (step 9) (State.new keyFocus) ops = some t →
        Restores t (Layers.run 9 ops ⟨keyFocus, []⟩) := by
  intro h
  obtain ⟨t, hrun, hfocus⟩ : ∃ t, Runs.run (step 9) (State.new (some 5)) fourGrabs = some t ∧
      t.keyFocus = some 2 :=
    ⟨_, rfl, by decide⟩
  have hrestored := (h (some 5) fourGrabs t hrun).keyFocus
  rw [hfocus] at hrestored
  revert hrestored
  decide

end ModalStack
