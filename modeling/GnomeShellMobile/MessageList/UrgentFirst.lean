import GnomeShellMobile.MessageList.Urgent
import Mathlib.Data.List.Basic
import Mathlib.Data.List.Nodup

/-!
# MessageList — the counters and the order

* `Consistent`: what is claimed of the counters, and of the order once no animation is pending.
* `Inv`: what holds in between: the messages that are not animated are in order.
* `inv_count`: what a change of a group's counter leaves.
* `Careful`: an urgency is changed to or from critical, the last urgent notification of a group stays
  as long as the group is listed, a group that is being removed hears of nothing, and a message is
  put where it fits.
* `Inv.step`, `run_counts`: a run of careful steps is consistent all along.
-/

namespace MessageList.Urgent

open State

variable {s t : State} {g : ℕ} {m : Message}
variable {index : ℤ} {source : ℕ} {urgency : Urgency}

/-! ## What is claimed -/

variable (s)

def State.urgentCount (source : ℕ) : ℕ :=
  (s.notifications source).countP (· = .critical)

def State.Tracked : Message → Prop
  | .media player => player ∈ s.players
  | .group g => g ∈ s.notificationGroups

def State.rank : Message → ℕ
  | .media _ => 0
  | .group g => if 0 < s.urgentCount (s.group g).source then 1 else 2

def State.Settled : Prop := ∀ m ∈ s.messages, s.pending m = none

structure Consistent : Prop where
  counts : ∀ g, .group g ∈ s.messages → (s.group g).nUrgent = s.urgentCount (s.group g).source
  view : s.nUrgent = s.notificationGroups.countP s.hasUrgent
  order : s.Settled → s.messages.Nodup ∧ (∀ m, m ∈ s.messages ↔ s.Tracked m) ∧
    s.messages.Pairwise fun m m' => s.rank m ≤ s.rank m'

variable {s}

/-! ## Lists -/

/-- An element put among others that are in order is in order where those before it come before it
and those after it come after it. Only the elements that `p` is true of count. -/
theorem pairwise_splice {α : Type*} {p : α → Bool} {rank : α → ℕ} {l : List α} {x : α}
    (hl : (l.filter p).Pairwise fun a b => rank a ≤ rank b)
    (hbefore : ∀ a ∈ l.take (spliceIndex l.length index), p a = true → rank a ≤ rank x)
    (hafter : ∀ a ∈ l.drop (spliceIndex l.length index), p a = true → rank x ≤ rank a) :
    ((splice l index x).filter p).Pairwise fun a b => rank a ≤ rank b := by
  have hcut := List.take_append_drop (spliceIndex l.length index) l
  have hl' : ((l.take (spliceIndex l.length index)).filter p ++
      (l.drop (spliceIndex l.length index)).filter p).Pairwise fun a b => rank a ≤ rank b := by
    rw [← List.filter_append, hcut]
    exact hl
  obtain ⟨hfront, hback, hcross⟩ := List.pairwise_append.mp hl'
  have hx : ((x :: l.drop (spliceIndex l.length index)).filter p).Pairwise fun a b =>
      rank a ≤ rank b := by
    rw [List.filter_cons]
    split
    · refine List.pairwise_cons.mpr ⟨fun a ha => ?_, hback⟩
      obtain ⟨hmem, hp⟩ := List.mem_filter.mp ha
      exact hafter a hmem hp
    · exact hback
  rw [splice, List.filter_append]
  refine List.pairwise_append.mpr ⟨hfront, hx, fun a ha b hb => ?_⟩
  obtain ⟨hmem, hp⟩ := List.mem_filter.mp ha
  obtain ⟨hmem', hp'⟩ := List.mem_filter.mp hb
  obtain rfl | hmem' := List.mem_cons.mp hmem'
  · exact hbefore a hmem hp
  · exact hcross a ha b (List.mem_filter.mpr ⟨hmem', hp'⟩)

theorem mem_splice {α : Type*} {l : List α} {x y : α} : y ∈ splice l index x ↔ y = x ∨ y ∈ l := by
  have hcut := List.take_append_drop (spliceIndex l.length index) l
  conv_rhs => rw [← hcut]
  simp only [splice, List.mem_append, List.mem_cons]
  exact or_left_comm

theorem nodup_splice {α : Type*} {l : List α} {x : α} (hl : l.Nodup) (hx : x ∉ l) :
    (splice l index x).Nodup := by
  have hcut := List.take_append_drop (spliceIndex l.length index) l
  rw [splice, List.nodup_middle, hcut]
  exact List.nodup_cons.mpr ⟨hx, hl⟩

theorem splice_erase {α : Type*} [DecidableEq α] {l : List α} {x : α} (hl : l.Nodup)
    (h : getAt l index = some x) : splice (l.erase x) index x = l := by
  have hneg : ¬ index < 0 := fun hneg => by simp [getAt, hneg] at h
  rw [getAt, if_neg hneg] at h
  obtain ⟨hlt, hx⟩ := List.getElem?_eq_some_iff.mp h
  have hsplit : l = l.take index.toNat ++ x :: l.drop (index.toNat + 1) := by
    conv_lhs => rw [← List.take_append_drop index.toNat l, List.drop_eq_getElem_cons hlt, hx]
  have hnot : x ∉ l.take index.toNat := by
    rw [hsplit] at hl
    exact fun hmem => (List.nodup_append.mp hl).2.2 x hmem x List.mem_cons_self rfl
  have herase : l.erase x = l.take index.toNat ++ l.drop (index.toNat + 1) := by
    conv_lhs => rw [hsplit]
    rw [List.erase_append_right _ hnot, List.erase_cons_head]
  have hlength : (l.take index.toNat).length = index.toNat := by
    rw [List.length_take]
    omega
  rw [splice, spliceIndex, if_neg hneg, herase, List.take_left' hlength, List.drop_left' hlength]
  exact hsplit.symm

theorem filter_erase {α : Type*} [DecidableEq α] {l : List α} {p : α → Bool} {x : α}
    (hl : l.Nodup) : (l.erase x).filter p = l.filter fun y => p y && decide (y ≠ x) := by
  rw [hl.erase_eq_filter, List.filter_filter]
  refine List.filter_congr fun y _ => ?_
  by_cases h : y = x
  · simp [h]
  · simp [h]

theorem eq_nil_or_singleton {α : Type*} {l : List α} (hl : l.Nodup)
    (h : ∀ x ∈ l, ∀ y ∈ l, x = y) : l = [] ∨ ∃ x, l = [x] := by
  match l with
  | [] => exact .inl rfl
  | [x] => exact .inr ⟨x, rfl⟩
  | x :: y :: rest =>
    have hxy : x = y := h x List.mem_cons_self y (List.mem_cons_of_mem x List.mem_cons_self)
    exact absurd hxy fun h => (List.nodup_cons.mp hl).1 (h ▸ List.mem_cons_self)

/-! ## Between the steps -/

variable (s)

structure Listed : Prop where
  nodup : s.messages.Nodup
  mem : ∀ m, m ∈ s.messages ↔ s.Tracked m ∨ s.pending m = some .remove
  removed : ∀ m, s.pending m = some .remove → ¬ s.Tracked m
  moved : ∀ m index, s.pending m = some (.move index) → s.Tracked m
  sources : ∀ g ∈ s.notificationGroups, ∀ g' ∈ s.notificationGroups,
    (s.group g).source = (s.group g').source → g = g'
  nodupGroups : s.notificationGroups.Nodup
  fresh : ∀ g, .group g ∈ s.messages → g < s.created

def State.rests (m : Message) : Bool := s.pending m = none

def State.Ordered (p : Message → Bool) : Prop :=
  (s.messages.filter p).Pairwise fun m m' => s.rank m ≤ s.rank m'

structure Inv : Prop extends Listed s where
  counts : ∀ g, .group g ∈ s.messages → (s.group g).nUrgent = s.urgentCount (s.group g).source
  view : s.nUrgent = s.notificationGroups.countP s.hasUrgent
  order : s.Ordered s.rests

variable {s}

theorem Inv.new : Inv State.new := by
  refine ⟨⟨List.nodup_nil, ?_, ?_, ?_, ?_, List.nodup_nil, ?_⟩, ?_, rfl, List.Pairwise.nil⟩
  · rintro (player | g) <;> simp [State.new, State.Tracked]
  all_goals simp [State.new]

theorem Inv.consistent (h : Inv s) : Consistent s := by
  refine ⟨h.counts, h.view, fun hsettled => ⟨h.nodup, fun m => ?_, ?_⟩⟩
  · refine (h.mem m).trans (or_iff_left_of_imp fun hremove => ?_)
    have hmem := (h.mem m).mpr (.inr hremove)
    rw [hsettled m hmem] at hremove
    cases hremove
  · have hall : s.messages.filter s.rests = s.messages :=
      List.filter_eq_self.mpr fun m hm => decide_eq_true (hsettled m hm)
    have horder := h.order
    rw [State.Ordered, hall] at horder
    exact horder

theorem Listed.mem_of_group (h : Listed s) (hg : g ∈ s.notificationGroups) : .group g ∈ s.messages :=
  (h.mem (.group g)).mpr (.inl hg)

theorem Listed.mem_of_pending (h : Listed s) (hm : s.pending m ≠ none) : m ∈ s.messages := by
  cases hpending : s.pending m with
  | none => exact absurd hpending hm
  | some pending =>
    cases pending with
    | move index => exact (h.mem m).mpr (.inl (h.moved m index hpending))
    | remove => exact (h.mem m).mpr (.inr hpending)

theorem State.Ordered.sub {p q : Message → Bool} (h : s.Ordered p)
    (hsub : ∀ m, q m = true → p m = true) : s.Ordered q := by
  refine List.Pairwise.sublist ?_ h
  have hq : s.messages.filter q = (s.messages.filter p).filter q := by
    rw [List.filter_filter]
    refine List.filter_congr fun m _ => ?_
    cases hm : q m with
    | false => rfl
    | true => rw [hsub m hm]; rfl
  rw [hq]
  exact List.filter_sublist

theorem State.Ordered.congr {p : Message → Bool} (h : s.Ordered p)
    (hmessages : t.messages = s.messages)
    (hrank : ∀ m ∈ s.messages, p m = true → t.rank m = s.rank m) : t.Ordered p := by
  rw [State.Ordered, hmessages]
  refine List.Pairwise.imp_of_mem (fun {m m'} hm hm' hle => ?_) h
  obtain ⟨hmem, hp⟩ := List.mem_filter.mp hm
  obtain ⟨hmem', hp'⟩ := List.mem_filter.mp hm'
  rw [hrank m hmem hp, hrank m' hmem' hp']
  exact hle

/-! ## Moving a message -/

/-- `m` fits at `index`, with the rank `rank`: of the other messages that are not animated, those
before it come before it, and those after it after it. -/
def Fits (s : State) (m : Message) (index : ℤ) (rank : ℕ) : Prop :=
  (∀ m' ∈ (s.messages.erase m).take (spliceIndex (s.messages.erase m).length index),
    s.rests m' = true → s.rank m' ≤ rank) ∧
  ∀ m' ∈ (s.messages.erase m).drop (spliceIndex (s.messages.erase m).length index),
    s.rests m' = true → rank ≤ s.rank m'
deriving Decidable

theorem moveMessage_cases (hm : m ∈ s.messages) (index : ℤ) :
    getAt s.messages index = some m ∧ s.moveMessage m index = s ∨
      s.moveMessage m index = s.animate m (some (.move index)) := by
  unfold State.moveMessage
  by_cases hat : getAt s.messages index = some m
  · exact .inl ⟨hat, if_pos (.inr hat)⟩
  · exact .inr (if_neg (not_or_intro (not_not_intro hm) hat))

theorem rests_animate (m m' : Message) (pending : Pending) :
    (s.animate m (some pending)).rests m' = (s.rests m' && decide (m' ≠ m)) := by
  by_cases h : m' = m
  · subst h
    simp [State.rests, State.animate]
  · simp [State.rests, State.animate, h]

theorem Listed.animate_move (h : Listed s) (hm : s.Tracked m) (index : ℤ) :
    Listed (s.animate m (some (.move index))) := by
  have hother : ∀ m', (s.animate m (some (.move index))).pending m' = some .remove ↔
      s.pending m' = some .remove := by
    intro m'
    by_cases heq : m' = m
    · subst heq
      refine iff_of_false (by simp [State.animate]) fun hremove => h.removed m' hremove hm
    · simp [State.animate, heq]
  refine ⟨h.nodup, fun m' => ?_, fun m' hremove => ?_, fun m' index' hmove => ?_, h.sources,
    h.nodupGroups, h.fresh⟩
  · rw [hother]
    exact h.mem m'
  · exact h.removed m' ((hother m').mp hremove)
  · by_cases heq : m' = m
    · subst heq
      exact hm
    · simp only [State.animate, Function.update_of_ne heq] at hmove
      exact h.moved m' index' hmove

theorem Inv.moveMessage (h : Inv s) (hm : s.Tracked m) (index : ℤ) : Inv (s.moveMessage m index) := by
  obtain ⟨-, heq⟩ | heq := moveMessage_cases ((h.mem m).mpr (.inl hm)) index
  · rw [heq]
    exact h
  · rw [heq]
    refine ⟨h.toListed.animate_move hm index, h.counts, h.view, ?_⟩
    refine h.order.sub fun m' hrests => ?_
    rw [rests_animate] at hrests
    exact (Bool.and_eq_true_iff.mp hrests).1

theorem inv_moveMessage (hlisted : Listed s) (hm : s.Tracked m)
    (hcounts : ∀ g, .group g ∈ s.messages → (s.group g).nUrgent = s.urgentCount (s.group g).source)
    (hview : s.nUrgent = s.notificationGroups.countP s.hasUrgent)
    (hothers : s.Ordered fun m' => s.rests m' && decide (m' ≠ m))
    (hfits : getAt s.messages index = some m → s.pending m = none → Fits s m index (s.rank m)) :
    Inv (s.moveMessage m index) := by
  obtain ⟨hat, heq⟩ | heq := moveMessage_cases ((hlisted.mem m).mpr (.inl hm)) index
  · rw [heq]
    refine ⟨hlisted, hcounts, hview, ?_⟩
    by_cases hpending : s.pending m = none
    · -- it stays, and is in order where it is
      obtain ⟨hbefore, hafter⟩ := hfits hat hpending
      have herase : ((s.messages.erase m).filter s.rests).Pairwise
          fun m m' => s.rank m ≤ s.rank m' := by
        rw [filter_erase hlisted.nodup]
        exact hothers
      have hput := pairwise_splice herase hbefore hafter
      rw [splice_erase hlisted.nodup hat] at hput
      exact hput
    · refine hothers.sub fun m' hrests => ?_
      have hne : m' ≠ m := by
        rintro rfl
        exact hpending (of_decide_eq_true hrests)
      simp [hrests, hne]
  · rw [heq]
    refine ⟨hlisted.animate_move hm index, hcounts, hview, ?_⟩
    exact hothers.sub fun m' hrests => (rests_animate m m' (.move index)).symm.trans hrests

/-! ## The counter of a group -/

theorem hasUrgent_addUrgent_of_ne {g' : ℕ} (h : g' ≠ g) (n : ℤ) :
    (s.addUrgent g n).hasUrgent g' = s.hasUrgent g' := by
  simp [State.addUrgent, State.setGroup, State.hasUrgent, h]

theorem nUrgent_addUrgent (s : State) (g g' : ℕ) (n : ℤ) :
    ((s.addUrgent g n).group g').nUrgent = (s.group g').nUrgent + if g' = g then n else 0 := by
  by_cases h : g' = g
  · subst h
    simp [State.addUrgent, State.setGroup]
  · simp [State.addUrgent, State.setGroup, h]

@[simp] theorem source_addUrgent (s : State) (g g' : ℕ) (n : ℤ) :
    ((s.addUrgent g n).group g').source = (s.group g').source := by
  by_cases h : g' = g
  · subst h
    simp [State.addUrgent, State.setGroup]
  · simp [State.addUrgent, State.setGroup, h]

theorem rank_addUrgent (s : State) (g : ℕ) (n : ℤ) (m : Message) :
    (s.addUrgent g n).rank m = s.rank m := by
  cases m with
  | media player => rfl
  | group g' =>
    simp only [State.rank, source_addUrgent]
    rfl

theorem Listed.addUrgent (h : Listed s) (g : ℕ) (n : ℤ) : Listed (s.addUrgent g n) := by
  refine ⟨h.nodup, h.mem, h.removed, h.moved, fun g' hg' g'' hg'' hsource => ?_, h.nodupGroups,
    h.fresh⟩
  rw [source_addUrgent, source_addUrgent] at hsource
  exact h.sources g' hg' g'' hg'' hsource

theorem ordered_addUrgent {p : Message → Bool} (n : ℤ) :
    (s.addUrgent g n).Ordered p ↔ s.Ordered p := by
  simp only [State.Ordered, rank_addUrgent]
  rfl

theorem countP_hasUrgent (hnodup : s.notificationGroups.Nodup) (hg : g ∈ s.notificationGroups)
    (n : ℤ) (hflips : (s.addUrgent g n).hasUrgent g ≠ s.hasUrgent g) :
    ((s.notificationGroups.countP (s.addUrgent g n).hasUrgent : ℕ) : ℤ) =
      if (s.addUrgent g n).hasUrgent g then ((s.notificationGroups.countP s.hasUrgent : ℕ) : ℤ) + 1
      else ((s.notificationGroups.countP s.hasUrgent : ℕ) : ℤ) - 1 := by
  obtain ⟨front, back, hsplit⟩ := List.append_of_mem hg
  rw [hsplit] at hnodup ⊢
  obtain ⟨-, hback, hcross⟩ := List.nodup_append.mp hnodup
  have hsame : ∀ l : List ℕ, g ∉ l → l.countP (s.addUrgent g n).hasUrgent = l.countP s.hasUrgent := by
    intro l hl
    refine List.countP_congr fun g' hg' => ?_
    rw [hasUrgent_addUrgent_of_ne fun h : g' = g => hl (h ▸ hg')]
  have hfront : g ∉ front := fun h => hcross g h g List.mem_cons_self rfl
  rw [List.countP_append, List.countP_append, List.countP_cons, List.countP_cons, hsame front hfront,
    hsame back (List.nodup_cons.mp hback).1]
  cases hnew : (s.addUrgent g n).hasUrgent g with
  | true =>
    have hold : s.hasUrgent g = false := by
      rw [hnew] at hflips
      simpa using Ne.symm hflips
    simp only [hold, if_true, Bool.false_eq_true, if_false]
    omega
  | false =>
    have hold : s.hasUrgent g = true := by
      rw [hnew] at hflips
      simpa using Ne.symm hflips
    simp only [hold, if_true, Bool.false_eq_true, if_false]
    omega

/-- `_nUrgent` of a listed group is changed to what its source has, and the view follows. `hfits` is
about the case that the group is where it is wanted already. -/
theorem inv_count (hlisted : Listed s) (hg : g ∈ s.notificationGroups) {n : ℤ}
    (hcounts : ∀ g', .group g' ∈ s.messages →
      (s.group g').nUrgent + (if g' = g then n else 0) = s.urgentCount (s.group g').source)
    (hview : s.nUrgent = s.notificationGroups.countP s.hasUrgent)
    (hothers : s.Ordered fun m => s.rests m && decide (m ≠ .group g))
    (hsame : (s.addUrgent g n).hasUrgent g = s.hasUrgent g → s.Ordered s.rests)
    (hfits : (s.addUrgent g n).hasUrgent g ≠ s.hasUrgent g →
      getAt s.messages (s.players.length +
        if (s.addUrgent g n).hasUrgent g then 0 else s.nUrgent - 1) = some (.group g) →
      s.pending (.group g) = none →
      Fits s (.group g) (s.players.length +
        if (s.addUrgent g n).hasUrgent g then 0 else s.nUrgent - 1) (s.rank (.group g))) :
    Inv (s.count g n) := by
  have hcounts' : ∀ g', .group g' ∈ s.messages → ((s.addUrgent g n).group g').nUrgent =
      s.urgentCount ((s.addUrgent g n).group g').source := by
    intro g' hg'
    rw [nUrgent_addUrgent, source_addUrgent]
    exact hcounts g' hg'
  have hlisted' := hlisted.addUrgent g n
  unfold State.count
  dsimp only
  split
  · next hkept =>
    refine ⟨hlisted', hcounts', ?_, (ordered_addUrgent n).mpr (hsame hkept)⟩
    refine hview.trans (congrArg Nat.cast (List.countP_congr fun g' _ => ?_))
    by_cases hne : g' = g
    · rw [hne, hkept]
    · rw [hasUrgent_addUrgent_of_ne hne]
  · next hflips =>
    have hcountP := countP_hasUrgent hlisted.nodupGroups hg n hflips
    unfold State.onHasUrgent
    dsimp only
    let u : State := { s.addUrgent g n with
      nUrgent := if (s.addUrgent g n).hasUrgent g then s.nUrgent + 1 else s.nUrgent - 1 }
    have hindex : u.groupIndex g =
        s.players.length + if (s.addUrgent g n).hasUrgent g then 0 else s.nUrgent - 1 := by
      show ((s.addUrgent g n).players.length : ℤ) + (if (s.addUrgent g n).hasUrgent g then 0 else
        if (s.addUrgent g n).hasUrgent g then s.nUrgent + 1 else s.nUrgent - 1) = _
      cases (s.addUrgent g n).hasUrgent g <;> rfl
    have hrank : u.rank (.group g) = s.rank (.group g) := rank_addUrgent s g n (.group g)
    show Inv (u.moveMessage (.group g) (u.groupIndex g))
    have hlisted'' : Listed u := ⟨hlisted'.nodup, hlisted'.mem, hlisted'.removed, hlisted'.moved,
      hlisted'.sources, hlisted'.nodupGroups, hlisted'.fresh⟩
    refine inv_moveMessage (m := .group g) hlisted'' hg hcounts' ?_ ((ordered_addUrgent n).mpr hothers) ?_
    · rw [← hview] at hcountP
      exact hcountP.symm
    · intro hat hpending
      rw [hindex] at hat ⊢
      rw [hrank]
      obtain ⟨hbefore, hafter⟩ := hfits hflips hat hpending
      refine ⟨fun m' hm' hrests => ?_, fun m' hm' hrests => ?_⟩
      · exact le_of_eq_of_le (rank_addUrgent s g n m') (hbefore m' hm' hrests)
      · exact le_of_le_of_eq (hafter m' hm' hrests) (rank_addUrgent s g n m').symm

/-! ## The notifications of a source -/

theorem mem_groupsOf (h : Listed s) :
    g ∈ s.groupsOf source ↔ .group g ∈ s.messages ∧ (s.group g).source = source := by
  simp only [State.groupsOf, List.mem_filter, List.mem_range, decide_eq_true_eq]
  exact and_iff_right_of_imp fun hg => h.fresh g hg.1

theorem nodup_groupsOf (s : State) (source : ℕ) : (s.groupsOf source).Nodup :=
  List.nodup_range.filter _

def Heard (s : State) (source : ℕ) : Prop := ∀ g ∈ s.groupsOf source, g ∈ s.notificationGroups
deriving Decidable

theorem groupsOf_of_heard (h : Listed s) (hheard : Heard s source) :
    s.groupsOf source = [] ∨ ∃ g, s.groupsOf source = [g] := by
  refine eq_nil_or_singleton (nodup_groupsOf s source) fun g hg g' hg' => ?_
  have hsource := ((mem_groupsOf h).mp hg).2
  have hsource' := ((mem_groupsOf h).mp hg').2
  exact h.sources g (hheard g hg) g' (hheard g' hg') (hsource.trans hsource'.symm)

theorem urgentCount_setNotifications (s : State) (source source' : ℕ) (l : List Urgency) :
    (s.setNotifications source l).urgentCount source' =
      if source' = source then l.countP (· = .critical) else s.urgentCount source' := by
  by_cases h : source' = source
  · subst h
    simp [State.urgentCount, State.setNotifications]
  · simp [State.urgentCount, State.setNotifications, h]

theorem rank_setNotifications {l : List Urgency}
    (h : ∀ g, m = .group g → (s.group g).source ≠ source) :
    (s.setNotifications source l).rank m = s.rank m := by
  cases m with
  | media player => rfl
  | group g =>
    have hne := h g rfl
    show (if 0 < (s.setNotifications source l).urgentCount (s.group g).source then 1 else 2) = _
    rw [urgentCount_setNotifications, if_neg hne]
    rfl

theorem Listed.setNotifications (h : Listed s) (source : ℕ) (l : List Urgency) :
    Listed (s.setNotifications source l) :=
  ⟨h.nodup, h.mem, h.removed, h.moved, h.sources, h.nodupGroups, h.fresh⟩

theorem Inv.setNotifications (h : Inv s) (l : List Urgency)
    (hnone : s.groupsOf source = []) : Inv (s.setNotifications source l) := by
  have hother : ∀ g, .group g ∈ s.messages → (s.group g).source ≠ source := by
    intro g hg hsource
    have hmem := (mem_groupsOf h.toListed).mpr ⟨hg, hsource⟩
    rw [hnone] at hmem
    cases hmem
  refine ⟨h.toListed.setNotifications source l, fun g hg => ?_, h.view, ?_⟩
  · refine (h.counts g hg).trans (congrArg Nat.cast ?_)
    show _ = (s.setNotifications source l).urgentCount (s.group g).source
    rw [urgentCount_setNotifications, if_neg (hother g hg)]
  · refine h.order.congr rfl fun m hm _ => rank_setNotifications ?_
    rintro g rfl
    exact hother g hm

def Stays (s : State) (g : ℕ) (urgent : Bool) : Prop :=
  getAt s.messages (s.players.length + if urgent then 0 else s.nUrgent - 1) = some (.group g) →
    s.pending (.group g) = none →
    Fits s (.group g) (s.players.length + if urgent then 0 else s.nUrgent - 1)
      (if urgent then 1 else 2)
deriving Decidable

theorem Inv.count (h : Inv s) {l : List Urgency} {n : ℤ}
    (hone : s.groupsOf source = [g]) (hg : g ∈ s.notificationGroups)
    (hcount : (l.countP (· = .critical) : ℤ) = s.urgentCount source + n)
    (hbegins : s.urgentCount source = 0 → 0 < n → Stays s g true)
    (hends : 0 < s.urgentCount source → l.countP (· = .critical) = 0 → Stays s g false) :
    Inv ((s.setNotifications source l).count g n) := by
  have hlisted := h.toListed.setNotifications source l
  have hsource : (s.group g).source = source :=
    ((mem_groupsOf h.toListed).mp (hone ▸ List.mem_singleton_self g)).2
  have hother : ∀ g', .group g' ∈ s.messages → g' ≠ g → (s.group g').source ≠ source := by
    intro g' hg' hne hsource'
    have hmem := (mem_groupsOf h.toListed).mpr ⟨hg', hsource'⟩
    rw [hone] at hmem
    exact hne (List.mem_singleton.mp hmem)
  have hrank : ∀ m ∈ s.messages, m ≠ .group g → (s.setNotifications source l).rank m = s.rank m := by
    intro m hm hne
    refine rank_setNotifications ?_
    rintro g' rfl
    exact hother g' hm fun heq => hne (heq ▸ rfl)
  have hcountg : (s.group g).nUrgent = s.urgentCount source :=
    hsource ▸ h.counts g (h.toListed.mem_of_group hg)
  have hnew : ((s.setNotifications source l).addUrgent g n).hasUrgent g =
      decide (0 < l.countP (· = .critical)) := by
    refine decide_eq_decide.mpr ?_
    rw [nUrgent_addUrgent, if_pos rfl]
    show 0 < (s.group g).nUrgent + n ↔ _
    omega
  have hold : (s.setNotifications source l).hasUrgent g = decide (0 < s.urgentCount source) := by
    refine decide_eq_decide.mpr ?_
    show 0 < (s.group g).nUrgent ↔ _
    omega
  have hrankg : (s.setNotifications source l).rank (.group g) =
      if 0 < l.countP (· = .critical) then 1 else 2 := by
    show (if 0 < (s.setNotifications source l).urgentCount (s.group g).source then 1 else 2) = _
    rw [urgentCount_setNotifications, if_pos hsource]
  refine inv_count hlisted hg (fun g' hg' => ?_) h.view ?_ (fun hkept => ?_) fun hflips => ?_
  · show (s.group g').nUrgent + (if g' = g then n else 0) =
      (s.setNotifications source l).urgentCount (s.group g').source
    rw [urgentCount_setNotifications]
    by_cases hne : g' = g
    · rw [if_pos hne, hne, if_pos hsource]
      omega
    · rw [if_neg hne, if_neg (hother g' hg' hne), Int.add_zero]
      exact h.counts g' hg'
  · refine State.Ordered.congr (s := s) (h.order.sub fun m hm => (Bool.and_eq_true_iff.mp hm).1) rfl
      fun m hm hp => hrank m hm ?_
    exact of_decide_eq_true (Bool.and_eq_true_iff.mp hp).2
  · -- the group keeps its rank
    refine h.order.congr rfl fun m hm _ => ?_
    by_cases hmg : m = .group g
    · rw [hmg, hrankg]
      rw [hnew, hold, decide_eq_decide] at hkept
      show _ = if 0 < s.urgentCount (s.group g).source then 1 else 2
      rw [hsource, if_congr hkept rfl rfl]
    · exact hrank m hm hmg
  · intro hat hpending
    have hstays : Stays s g (decide (0 < l.countP (· = .critical))) := by
      rw [hnew, hold] at hflips
      by_cases hurgent : 0 < l.countP (· = .critical)
      · rw [decide_eq_true hurgent] at hflips ⊢
        have hzero : s.urgentCount source = 0 := by
          by_contra hne
          exact hflips (decide_eq_true (Nat.pos_of_ne_zero hne)).symm
        exact hbegins hzero (by omega)
      · rw [decide_eq_false hurgent] at hflips ⊢
        have hpos : 0 < s.urgentCount source := by
          by_contra hne
          exact hflips (decide_eq_false hne).symm
        exact hends hpos (by omega)
    rw [hnew] at hat ⊢
    obtain ⟨hbefore, hafter⟩ := hstays hat hpending
    have hne : ∀ m ∈ s.messages.erase (.group g), m ∈ s.messages ∧ m ≠ .group g := fun m hm =>
      ((h.nodup.mem_erase_iff).mp hm).symm
    rw [hrankg]
    refine ⟨fun m' hm' hrests => ?_, fun m' hm' hrests => ?_⟩
    · obtain ⟨hmem, hmg⟩ := hne m' (List.mem_of_mem_take hm')
      refine le_of_eq_of_le (hrank m' hmem hmg) ?_
      simpa using hbefore m' hm' hrests
    · obtain ⟨hmem, hmg⟩ := hne m' (List.mem_of_mem_drop hm')
      refine le_of_le_of_eq ?_ (hrank m' hmem hmg).symm
      simpa using hafter m' hm' hrests

theorem Inv.tracked_of_rests (h : Inv s) (hm : m ∈ s.messages) (hrests : s.rests m = true) :
    s.Tracked m := by
  refine ((h.mem m).mp hm).resolve_right fun hremove => ?_
  rw [of_decide_eq_true hrests] at hremove
  cases hremove

theorem countP_eraseIdx {l : List Urgency} {i : ℕ} (h : l[i]? = some urgency) :
    l.countP (· = .critical) =
      (l.eraseIdx i).countP (· = .critical) + if urgency = .critical then 1 else 0 := by
  obtain ⟨hlt, hi⟩ := List.getElem?_eq_some_iff.mp h
  conv_lhs => rw [← List.take_append_drop i l, List.drop_eq_getElem_cons hlt, hi]
  rw [List.eraseIdx_eq_take_drop_succ, List.countP_append, List.countP_append, List.countP_cons]
  by_cases hc : urgency = .critical
  · simp only [hc, decide_true, if_true]
    omega
  · simp only [hc, decide_false, if_false, Bool.false_eq_true]
    omega

/-- The counters of different groups are independent. Induction on the groups. -/
theorem foldl_addUrgent {gs : List ℕ} (hnodup : gs.Nodup) (n : ℤ) :
    gs.foldl (fun s g => s.addUrgent g n) s = { s with
      group := fun g =>
        if g ∈ gs then { s.group g with nUrgent := (s.group g).nUrgent + n } else s.group g } := by
  induction gs generalizing s with
  | nil => simp
  | cons g gs ih =>
    obtain ⟨hg, hgs⟩ := List.nodup_cons.mp hnodup
    rw [List.foldl_cons, ih hgs]
    simp only [State.addUrgent, State.setGroup, State.mk.injEq, and_true, true_and]
    funext g'
    by_cases heq : g' = g
    · subst heq
      simp [hg]
    · simp [heq]

theorem removeNotification_eq (s : State) (source i : ℕ) (urgency : Urgency) :
    s.removeNotification source i urgency =
      { s.setNotifications source ((s.notifications source).eraseIdx i) with
        group := fun g =>
          if g ∈ s.groupsOf source then
            { s.group g with
              nUrgent := (s.group g).nUrgent + if urgency = .critical then -1 else 0 }
          else s.group g } :=
  foldl_addUrgent (nodup_groupsOf s source) _

theorem Inv.removeNotification (h : Inv s) {source i : ℕ}
    (hi : (s.notifications source)[i]? = some urgency)
    (hlast : urgency = .critical → s.urgentCount source = 1 →
      ∀ g ∈ s.notificationGroups, (s.group g).source ≠ source) :
    Inv (s.removeNotification source i urgency) := by
  have hcount : s.urgentCount source = ((s.notifications source).eraseIdx i).countP (· = .critical) +
      if urgency = .critical then 1 else 0 := countP_eraseIdx hi
  have hsource : ∀ g, ((s.removeNotification source i urgency).group g).source =
      (s.group g).source := by
    intro g
    rw [removeNotification_eq]
    dsimp only
    split
    · rfl
    · rfl
  have hurgent : ∀ source', (s.removeNotification source i urgency).urgentCount source' =
      if source' = source then ((s.notifications source).eraseIdx i).countP (· = .critical)
      else s.urgentCount source' := by
    intro source'
    rw [removeNotification_eq]
    exact urgentCount_setNotifications s source source' _
  have hcounts : ∀ g, .group g ∈ s.messages →
      ((s.removeNotification source i urgency).group g).nUrgent =
        (s.removeNotification source i urgency).urgentCount (s.group g).source := by
    intro g hg
    rw [hurgent, removeNotification_eq]
    dsimp only
    have hbefore := h.counts g hg
    by_cases hs : (s.group g).source = source
    · rw [if_pos ((mem_groupsOf h.toListed).mpr ⟨hg, hs⟩), if_pos hs]
      rw [hs] at hbefore
      by_cases hc : urgency = .critical
      · simp only [hc, if_true] at hcount ⊢
        omega
      · simp only [hc, if_false] at hcount ⊢
        omega
    · rw [if_neg fun hmem => hs ((mem_groupsOf h.toListed).mp hmem).2, if_neg hs]
      exact hbefore
  -- a listed group is not left without an urgent notification
  have hkeeps : ∀ g ∈ s.notificationGroups,
      0 < (s.removeNotification source i urgency).urgentCount (s.group g).source ↔
        0 < s.urgentCount (s.group g).source := by
    intro g hg
    rw [hurgent]
    by_cases hs : (s.group g).source = source
    · rw [if_pos hs, hs]
      by_cases hc : urgency = .critical
      · have hmore : s.urgentCount source ≠ 1 := fun hone => hlast hc hone g hg hs
        simp only [hc, if_true] at hcount
        omega
      · simp only [hc, if_false] at hcount
        omega
    · rw [if_neg hs]
  have hlisted : Listed (s.removeNotification source i urgency) := by
    have hsources : ∀ g ∈ s.notificationGroups, ∀ g' ∈ s.notificationGroups,
        ((s.removeNotification source i urgency).group g).source =
          ((s.removeNotification source i urgency).group g').source → g = g' := by
      intro g hg g' hg' heq
      rw [hsource, hsource] at heq
      exact h.sources g hg g' hg' heq
    rw [removeNotification_eq] at hsources ⊢
    exact ⟨h.nodup, h.mem, h.removed, h.moved, hsources, h.nodupGroups, h.fresh⟩
  have hmessages : (s.removeNotification source i urgency).messages = s.messages := by
    rw [removeNotification_eq]
    rfl
  refine ⟨hlisted, fun g hg => ?_, ?_, ?_⟩
  · rw [hmessages] at hg
    rw [hsource]
    exact hcounts g hg
  · have hview : (s.removeNotification source i urgency).nUrgent = s.nUrgent ∧
        (s.removeNotification source i urgency).notificationGroups = s.notificationGroups := by
      rw [removeNotification_eq]
      exact ⟨rfl, rfl⟩
    rw [hview.1, hview.2, h.view]
    refine congrArg Nat.cast (List.countP_congr fun g hg => ?_)
    have hmem := h.toListed.mem_of_group hg
    have hbefore := h.counts g hmem
    have hafter := hcounts g hmem
    have hkeep := hkeeps g hg
    simp only [State.hasUrgent, decide_eq_true_eq]
    omega
  · have hrests : (s.removeNotification source i urgency).rests = s.rests := by
      rw [removeNotification_eq]
      rfl
    rw [hrests]
    refine h.order.congr hmessages fun m hm hp => ?_
    have htracked := h.tracked_of_rests hm hp
    cases m with
    | media player => rfl
    | group g =>
      simp only [State.rank, hsource]
      rw [if_congr (hkeeps g htracked) rfl rfl]

/-! ## Sources and players -/

theorem addNotificationSource_eq (s : State) (source : ℕ) : s.addNotificationSource source =
      { s.setGroup s.created { source := source, nUrgent := s.urgentCount source } with
        created := s.created + 1
        notificationGroups := s.notificationGroups ++ [s.created]
        nUrgent := s.nUrgent + if 0 < s.urgentCount source then 1 else 0
        messages := splice s.messages
          (s.players.length + if 0 < s.urgentCount source then 0 else s.nUrgent)
          (.group s.created) } := by
  unfold State.addNotificationSource State.groupIndex State.hasUrgent State.setGroup
  by_cases hurgent : 0 < s.urgentCount source
  · have hpos : 0 < (s.notifications source).countP (· = .critical) := hurgent
    simp [State.urgentCount, hpos]
  · have hzero : (s.notifications source).countP (· = .critical) = 0 := Nat.eq_zero_of_not_pos hurgent
    simp [State.urgentCount, hzero]

theorem ordered_splice (h : s.Ordered s.rests) (hm : m ∉ s.messages)
    (hmessages : t.messages = splice s.messages index m) (hrests : ∀ m' ∈ s.messages,
      t.rests m' = s.rests m' ∧ t.rank m' = s.rank m') (hfits : Fits s m index (t.rank m)) :
    t.Ordered t.rests := by
  have herase : s.messages.erase m = s.messages := List.erase_of_not_mem hm
  rw [Fits, herase] at hfits
  obtain ⟨hbefore, hafter⟩ := hfits
  rw [State.Ordered, hmessages]
  refine pairwise_splice ?_ (fun m' hm' hp => ?_) fun m' hm' hp => ?_
  · have hsame : s.messages.filter t.rests = s.messages.filter s.rests :=
      List.filter_congr fun m' hm' => (hrests m' hm').1
    rw [hsame]
    refine List.Pairwise.imp_of_mem (fun {a b} ha hb hle => ?_) h
    rw [(hrests a (List.mem_filter.mp ha).1).2, (hrests b (List.mem_filter.mp hb).1).2]
    exact hle
  · obtain ⟨hrest, hrank⟩ := hrests m' (List.mem_of_mem_take hm')
    exact le_of_eq_of_le hrank (hbefore m' hm' (hrest ▸ hp))
  · obtain ⟨hrest, hrank⟩ := hrests m' (List.mem_of_mem_drop hm')
    exact le_of_le_of_eq (hafter m' hm' (hrest ▸ hp)) hrank.symm

theorem Inv.addNotificationSource (h : Inv s)
    (hnew : ∀ g ∈ s.notificationGroups, (s.group g).source ≠ source)
    (hfits : Fits s (.group s.created)
      (s.players.length + if 0 < s.urgentCount source then 0 else s.nUrgent)
      (if 0 < s.urgentCount source then 1 else 2)) : Inv (s.addNotificationSource source) := by
  have hfresh : .group s.created ∉ s.messages := fun hmem => Nat.lt_irrefl _ (h.fresh _ hmem)
  have hpending : s.pending (.group s.created) = none := by
    by_contra hne
    exact hfresh (h.toListed.mem_of_pending hne)
  have hother : ∀ g, .group g ∈ s.messages → g ≠ s.created := fun g hg heq => hfresh (heq ▸ hg)
  have hgroup : ∀ g, .group g ∈ s.messages →
      (s.addNotificationSource source).group g = s.group g := by
    intro g hg
    rw [addNotificationSource_eq]
    exact Function.update_of_ne (hother g hg) _ _
  have hcreated : (s.addNotificationSource source).group s.created =
      { source := source, nUrgent := s.urgentCount source } := by
    rw [addNotificationSource_eq]
    exact Function.update_self _ _ _
  have hmessages : (s.addNotificationSource source).messages = splice s.messages
      (s.players.length + if 0 < s.urgentCount source then 0 else s.nUrgent) (.group s.created) := by
    rw [addNotificationSource_eq]
  have hurgent : ∀ source', (s.addNotificationSource source).urgentCount source' =
      s.urgentCount source' := by
    intro source'
    rw [addNotificationSource_eq]
    rfl
  have hgroups : (s.addNotificationSource source).notificationGroups =
      s.notificationGroups ++ [s.created] := by
    rw [addNotificationSource_eq]
  have hframe : (s.addNotificationSource source).pending = s.pending ∧
      (s.addNotificationSource source).players = s.players ∧
      (s.addNotificationSource source).created = s.created + 1 ∧
      (s.addNotificationSource source).nUrgent =
        s.nUrgent + if 0 < s.urgentCount source then 1 else 0 := by
    rw [addNotificationSource_eq]
    exact ⟨rfl, rfl, rfl, rfl⟩
  obtain ⟨hpend, hplayers, hcount, hview⟩ := hframe
  have htracked : ∀ m, (s.addNotificationSource source).Tracked m ↔
      m = .group s.created ∨ s.Tracked m := by
    intro m
    cases m with
    | media player =>
      simp only [State.Tracked, hplayers]
      simp
    | group g =>
      simp only [State.Tracked, hgroups]
      simp [or_comm]
  have hcases : ∀ g ∈ (s.addNotificationSource source).notificationGroups,
      g ∈ s.notificationGroups ∧ (s.addNotificationSource source).group g = s.group g ∨
        g = s.created := by
    intro g hg
    rw [hgroups] at hg
    obtain hg | hg := List.mem_append.mp hg
    · exact .inl ⟨hg, hgroup g (h.toListed.mem_of_group hg)⟩
    · exact .inr (List.mem_singleton.mp hg)
  have hrank : ∀ m ∈ s.messages, (s.addNotificationSource source).rank m = s.rank m := by
    intro m hm
    cases m with
    | media player => rfl
    | group g => simp only [State.rank, hgroup g hm, hurgent]
  refine ⟨⟨?_, fun m => ?_, fun m hm => ?_, fun m index hm => ?_, ?_, ?_, fun g hg => ?_⟩,
    fun g hg => ?_, ?_, ?_⟩
  · rw [hmessages]
    exact nodup_splice h.nodup hfresh
  · rw [hmessages, mem_splice, htracked, hpend, h.mem, or_assoc]
  · rw [hpend] at hm
    rw [htracked]
    rintro (rfl | hm')
    · rw [hpending] at hm
      cases hm
    · exact h.removed m hm hm'
  · rw [hpend] at hm
    exact (htracked m).mpr (.inr (h.moved m index hm))
  · intro g hg g' hg' hsame
    obtain ⟨hg, heq⟩ | rfl := hcases g hg
    · obtain ⟨hg', heq'⟩ | rfl := hcases g' hg'
      · rw [heq, heq'] at hsame
        exact h.sources g hg g' hg' hsame
      · rw [heq, hcreated] at hsame
        exact absurd hsame (hnew g hg)
    · obtain ⟨hg', heq'⟩ | rfl := hcases g' hg'
      · rw [heq', hcreated] at hsame
        exact absurd hsame.symm (hnew g' hg')
      · rfl
  · rw [hgroups]
    refine List.nodup_append.mpr ⟨h.nodupGroups, List.nodup_singleton _, fun g hg g' hg' => ?_⟩
    rw [List.mem_singleton.mp hg']
    exact hother g (h.toListed.mem_of_group hg)
  · rw [hmessages, mem_splice] at hg
    rw [hcount]
    obtain hg | hg := hg
    · rw [Message.group.inj hg]
      exact Nat.lt_succ_self _
    · exact Nat.lt_succ_of_lt (h.fresh g hg)
  · rw [hmessages, mem_splice] at hg
    rw [hurgent]
    obtain hg | hg := hg
    · rw [Message.group.inj hg, hcreated]
    · rw [hgroup g hg]
      exact h.counts g hg
  · have hold : s.notificationGroups.countP (s.addNotificationSource source).hasUrgent =
        s.notificationGroups.countP s.hasUrgent := by
      refine List.countP_congr fun g hg => ?_
      rw [State.hasUrgent, hgroup g (h.toListed.mem_of_group hg), State.hasUrgent]
    have hone : (s.addNotificationSource source).hasUrgent s.created =
        decide (0 < s.urgentCount source) := by
      rw [State.hasUrgent, hcreated]
      exact decide_eq_decide.mpr Int.natCast_pos
    rw [hview, hgroups, List.countP_append, hold, List.countP_singleton, hone, h.view]
    by_cases hpos : 0 < s.urgentCount source
    · simp [hpos]
    · simp [hpos]
  · refine ordered_splice h.order hfresh hmessages (fun m hm => ⟨?_, hrank m hm⟩) ?_
    · rw [State.rests, hpend, State.rests]
    · have hrankg : (s.addNotificationSource source).rank (.group s.created) =
          if 0 < s.urgentCount source then 1 else 2 := by
        simp only [State.rank, hcreated, hurgent]
      rw [hrankg]
      exact hfits

theorem pending_animate (s : State) (m m' : Message) (pending : Option Pending) :
    (s.animate m pending).pending m' = if m' = m then pending else s.pending m' :=
  Function.update_apply s.pending m pending m'

theorem Listed.remove (h : Listed s) (hm : s.Tracked m) (hmessages : t.messages = s.messages)
    (hpending : t.pending = (s.animate m (some .remove)).pending)
    (htracked : ∀ m', t.Tracked m' ↔ s.Tracked m' ∧ m' ≠ m) (hgroup : t.group = s.group)
    (hgroups : t.notificationGroups.Sublist s.notificationGroups) (hcreated : t.created = s.created) :
    Listed t := by
  refine ⟨hmessages ▸ h.nodup, fun m' => ?_, fun m' hremove => ?_, fun m' index hmove => ?_,
    fun g hg g' hg' hsource => ?_, h.nodupGroups.sublist hgroups, fun g hg => ?_⟩
  · rw [hmessages, hpending, pending_animate, htracked, h.mem]
    by_cases heq : m' = m
    · rw [heq, if_pos rfl]
      exact iff_of_true (.inl hm) (.inr rfl)
    · rw [if_neg heq, and_iff_left heq]
  · rw [hpending, pending_animate] at hremove
    rw [htracked]
    rintro ⟨htrack, hne⟩
    rw [if_neg hne] at hremove
    exact h.removed m' hremove htrack
  · rw [hpending, pending_animate] at hmove
    by_cases heq : m' = m
    · rw [if_pos heq] at hmove
      cases hmove
    · rw [if_neg heq] at hmove
      exact (htracked m').mpr ⟨h.moved m' index hmove, heq⟩
  · rw [hgroup] at hsource
    exact h.sources g (hgroups.subset hg) g' (hgroups.subset hg') hsource
  · rw [hmessages] at hg
    rw [hcreated]
    exact h.fresh g hg

theorem ordered_animate (h : s.Ordered s.rests) (m : Message) (pending : Pending) :
    (s.animate m (some pending)).Ordered (s.animate m (some pending)).rests := by
  refine State.Ordered.congr (s := s) (h.sub fun m' hrests => ?_) rfl fun _ _ _ => rfl
  rw [rests_animate] at hrests
  exact (Bool.and_eq_true_iff.mp hrests).1

theorem countP_filter_ne {l : List ℕ} (hl : l.Nodup) (hg : g ∈ l) (p : ℕ → Bool) :
    ((l.countP p : ℕ) : ℤ) = (l.filter (· ≠ g)).countP p + if p g then 1 else 0 := by
  have herase : l.filter (· ≠ g) = l.erase g := by
    rw [hl.erase_eq_filter]
    refine List.filter_congr fun x _ => ?_
    by_cases hx : x = g
    · simp [hx]
    · simp [hx]
  rw [herase, (List.perm_cons_erase hg).countP_eq p, List.countP_cons]
  cases p g with
  | true => simp
  | false => simp

theorem Inv.removeNotificationSource (h : Inv s) (hg : g ∈ s.notificationGroups) :
    Inv (s.removeNotificationSource g) := by
  have heq : s.removeNotificationSource g = { s.animate (.group g) (some .remove) with
      nUrgent := if s.hasUrgent g then s.nUrgent - 1 else s.nUrgent
      notificationGroups := s.notificationGroups.filter (· ≠ g) } := by
    unfold State.removeNotificationSource
    dsimp only
    have hsame : (s.animate (.group g) (some .remove)).hasUrgent g = s.hasUrgent g := rfl
    rw [hsame]
    split
    · rfl
    · rfl
  rw [heq]
  refine ⟨h.toListed.remove (m := .group g) hg rfl rfl (fun m' => ?_) rfl List.filter_sublist rfl,
    h.counts, ?_, ordered_animate h.order (.group g) .remove⟩
  · cases m' with
    | media player => exact (and_iff_left Message.noConfusion).symm
    | group g' => simp [State.Tracked]
  · show (if s.hasUrgent g then s.nUrgent - 1 else s.nUrgent) =
      (((s.notificationGroups.filter (· ≠ g)).countP s.hasUrgent : ℕ) : ℤ)
    have hcount := countP_filter_ne h.nodupGroups hg s.hasUrgent
    rw [h.view, hcount]
    cases s.hasUrgent g with
    | true => simp only [if_true]; omega
    | false => simp

theorem Inv.removePlayer (h : Inv s) {player : ℕ} (hplayer : player ∈ s.players) :
    Inv (s.removePlayer player) := by
  refine ⟨h.toListed.remove (m := .media player) hplayer rfl rfl (fun m' => ?_) rfl
    (List.Sublist.refl _) rfl, h.counts, h.view, ordered_animate h.order (.media player) .remove⟩
  cases m' with
  | media player' => simp [State.Tracked, State.removePlayer]
  | group g => simp [State.Tracked, State.removePlayer, State.animate]

theorem Inv.addPlayer (h : Inv s) {player : ℕ} (hnew : .media player ∉ s.messages) :
    Inv (s.addPlayer player) := by
  have hpending : s.pending (.media player) = none := by
    by_contra hne
    exact hnew (h.toListed.mem_of_pending hne)
  have htracked : ∀ m, (s.addPlayer player).Tracked m ↔ m = .media player ∨ s.Tracked m := by
    intro m
    cases m with
    | media player' => simp [State.Tracked, State.addPlayer, or_comm]
    | group g => simp [State.Tracked, State.addPlayer]
  refine ⟨⟨nodup_splice h.nodup hnew, fun m => ?_, fun m hm => ?_, fun m index hm => ?_, h.sources,
    h.nodupGroups, fun g hg => ?_⟩, fun g hg => ?_, h.view, ?_⟩
  · rw [htracked, or_assoc]
    exact mem_splice.trans (or_congr_right (h.mem m))
  · rw [htracked]
    rintro (rfl | hm')
    · exact absurd (hpending.symm.trans hm) (by simp)
    · exact h.removed m hm hm'
  · exact (htracked m).mpr (.inr (h.moved m index hm))
  · exact h.fresh g ((mem_splice.mp hg).resolve_left (by simp))
  · exact h.counts g ((mem_splice.mp hg).resolve_left (by simp))
  · refine ordered_splice h.order hnew rfl (fun m hm => ⟨rfl, rfl⟩) ⟨fun m hm _ => ?_, fun m _ _ => ?_⟩
    · rw [spliceIndex] at hm
      cases hm
    · exact Nat.zero_le _

/-! ## The end of an animation -/

theorem State.Ordered.erase (h : s.Ordered s.rests) (hnodup : s.messages.Nodup) (m : Message) :
    State.Ordered { s with messages := s.messages.erase m } s.rests := by
  have hsub := h.sub (q := fun m' => s.rests m' && decide (m' ≠ m)) fun m' hm' =>
    (Bool.and_eq_true_iff.mp hm').1
  rw [State.Ordered, ← filter_erase hnodup] at hsub
  exact hsub

theorem rests_animate_none {m' : Message} (hne : m' ≠ m) : (s.animate m none).rests m' = s.rests m' := by
  rw [State.rests, pending_animate, if_neg hne, State.rests]

theorem pending_animate_none {m' : Message} {pending : Pending}
    (h : (s.animate m none).pending m' = some pending) : m' ≠ m ∧ s.pending m' = some pending := by
  rw [pending_animate] at h
  split at h
  · cases h
  · next hne => exact ⟨hne, h⟩

theorem Inv.completeRemove (h : Inv s) (hm : s.pending m = some .remove) :
    Inv (s.complete m .remove) := by
  have hmem : ∀ m', m' ∈ s.messages.erase m ↔ m' ≠ m ∧ m' ∈ s.messages := fun m' =>
    h.nodup.mem_erase_iff
  refine ⟨⟨h.nodup.erase m, fun m' => ?_, fun m' hremove => ?_, fun m' index hmove => ?_, h.sources,
    h.nodupGroups, fun g hg => h.fresh g ((hmem _).mp hg).2⟩,
    fun g hg => h.counts g ((hmem _).mp hg).2, h.view, ?_⟩
  · show m' ∈ s.messages.erase m ↔ s.Tracked m' ∨ (s.animate m none).pending m' = some .remove
    rw [hmem, pending_animate, h.mem]
    by_cases heq : m' = m
    · rw [if_pos heq, heq]
      exact iff_of_false (fun hne => hne.1 rfl) (by simp [h.removed m hm])
    · rw [if_neg heq, and_iff_right heq]
  · exact h.removed m' (pending_animate_none hremove).2
  · exact h.moved m' index (pending_animate_none hmove).2
  · have hsame : (s.messages.erase m).filter (s.animate m none).rests =
        (s.messages.erase m).filter s.rests :=
      List.filter_congr fun m' hm' => rests_animate_none ((hmem m').mp hm').1
    show ((s.messages.erase m).filter (s.animate m none).rests).Pairwise _
    rw [hsame]
    exact h.order.erase h.nodup m

theorem Inv.completeMove (h : Inv s) (hm : s.pending m = some (.move index))
    (hfits : Fits s m index (s.rank m)) : Inv (s.complete m (.move index)) := by
  have hmem : ∀ m', m' ∈ s.messages.erase m ↔ m' ≠ m ∧ m' ∈ s.messages := fun m' =>
    h.nodup.mem_erase_iff
  have hnot : m ∉ s.messages.erase m := fun hin => ((hmem m).mp hin).1 rfl
  have htracked : s.Tracked m := h.moved m index hm
  have hin : m ∈ s.messages := (h.mem m).mpr (.inl htracked)
  have hall : ∀ m', m' ∈ splice (s.messages.erase m) index m ↔ m' ∈ s.messages := by
    intro m'
    rw [mem_splice, hmem]
    by_cases heq : m' = m
    · rw [heq]
      exact iff_of_true (.inl rfl) hin
    · rw [or_iff_right heq, and_iff_right heq]
  refine ⟨⟨nodup_splice (h.nodup.erase m) hnot, fun m' => ?_, fun m' hremove => ?_,
    fun m' index' hmove => ?_, h.sources, h.nodupGroups, fun g hg => h.fresh g ((hall _).mp hg)⟩,
    fun g hg => h.counts g ((hall _).mp hg), h.view, ?_⟩
  · show m' ∈ splice (s.messages.erase m) index m ↔
      s.Tracked m' ∨ (s.animate m none).pending m' = some .remove
    rw [hall, pending_animate, h.mem]
    by_cases heq : m' = m
    · rw [if_pos heq, heq]
      exact iff_of_true (.inl htracked) (.inl htracked)
    · rw [if_neg heq]
  · exact h.removed m' (pending_animate_none hremove).2
  · exact h.moved m' index' (pending_animate_none hmove).2
  · refine ordered_splice (s := { s with messages := s.messages.erase m })
      (h.order.erase h.nodup m) hnot rfl (fun m' hm' => ?_) ?_
    · exact ⟨rests_animate_none ((hmem m').mp hm').1, rfl⟩
    · rw [Fits]
      dsimp only
      rw [List.erase_of_not_mem hnot]
      exact hfits

/-! ## Careful steps -/

/-- An urgency is changed to or from critical. A critical notification that is removed is not the last
one of a listed group. A source whose notifications are added or changed has no group that is being
removed. And a message fits where it is put: a new group, a group whose animation ends, and one that
is where it is wanted when its first urgent notification comes or its last one goes. -/
def Careful (s : State) : Event → Prop
  | .addNotification source urgency =>
    Heard s source ∧ (urgency = .critical → s.urgentCount source = 0 →
      ∀ g ∈ s.groupsOf source, Stays s g true)
  | .setUrgency source i urgency =>
    Heard s source ∧
      (s.groupsOf source ≠ [] → urgency = .critical ∨ (s.notifications source)[i]? = some .critical) ∧
      (urgency = .critical → s.urgentCount source = 0 → ∀ g ∈ s.groupsOf source, Stays s g true) ∧
      (urgency ≠ .critical → s.urgentCount source = 1 → ∀ g ∈ s.groupsOf source, Stays s g false)
  | .removeNotification source i =>
    (s.notifications source)[i]? = some .critical → s.urgentCount source = 1 →
      ∀ g ∈ s.notificationGroups, (s.group g).source ≠ source
  | .addNotificationSource source =>
    Fits s (.group s.created)
      (s.players.length + if 0 < s.urgentCount source then 0 else s.nUrgent)
      (if 0 < s.urgentCount source then 1 else 2)
  | .complete m =>
    match s.pending m with
    | some (.move index) => Fits s m index (s.rank m)
    | _ => True
  | _ => True

theorem notificationGroups_moveMessage (s : State) (m : Message) (index : ℤ) :
    (s.moveMessage m index).notificationGroups = s.notificationGroups := by
  unfold State.moveMessage
  split
  · rfl
  · rfl

theorem notificationGroups_count (s : State) (g : ℕ) (n : ℤ) :
    (s.count g n).notificationGroups = s.notificationGroups := by
  unfold State.count
  dsimp only
  split
  · rfl
  · exact notificationGroups_moveMessage _ _ _

theorem Inv.addNotification (h : Inv s) (hcareful : Careful s (.addNotification source urgency)) :
    Inv (s.addNotification source urgency) := by
  obtain ⟨hheard, hstays⟩ := hcareful
  obtain hnone | ⟨g, hone⟩ := groupsOf_of_heard h.toListed hheard
  · rw [State.addNotification, hnone]
    exact h.setNotifications _ hnone
  · have hmem : g ∈ s.groupsOf source := hone ▸ List.mem_singleton_self g
    have hg := hheard g hmem
    have hcount : ((s.notifications source ++ [urgency]).countP (· = .critical) : ℤ) =
        s.urgentCount source + if urgency = .critical then 1 else 0 := by
      rw [List.countP_append, List.countP_singleton]
      by_cases hc : urgency = .critical
      · simp [hc, State.urgentCount]
      · simp [hc, State.urgentCount]
    have hinv := h.count hone hg hcount (fun hzero hpos => hstays ?_ hzero g hmem) fun hpos hzero => ?_
    · rw [State.addNotification, hone]
      refine hinv.moveMessage (m := .group g) ?_ _
      show g ∈ (State.count _ g _).notificationGroups
      rw [notificationGroups_count]
      exact hg
    · by_contra hc
      rw [if_neg hc] at hpos
      exact absurd hpos (Int.lt_irrefl 0)
    · split at hcount
      · omega
      · omega

theorem Inv.setUrgency (h : Inv s) {source i : ℕ}
    (hi : i < (s.notifications source).length) (hnew : (s.notifications source)[i]? ≠ some urgency)
    (hcareful : Careful s (.setUrgency source i urgency)) :
    Inv (s.setUrgency source i urgency) := by
  obtain ⟨hheard, hcritical, hbegins, hends⟩ := hcareful
  obtain hnone | ⟨g, hone⟩ := groupsOf_of_heard h.toListed hheard
  · rw [State.setUrgency, hnone]
    exact h.setNotifications _ hnone
  · have hmem : g ∈ s.groupsOf source := hone ▸ List.mem_singleton_self g
    have hg := hheard g hmem
    have hset := List.countP_set (p := fun u => decide (u = .critical)) (a := urgency) hi
    rw [List.getElem?_eq_getElem hi] at hnew hcritical
    have hcount : (((s.notifications source).set i urgency).countP (· = .critical) : ℤ) =
        s.urgentCount source + if urgency = .critical then 1 else -1 := by
      rw [hset, State.urgentCount]
      by_cases hc : urgency = .critical
      · have hold : (s.notifications source)[i] ≠ .critical := fun heq => hnew (by rw [heq, hc])
        simp [hc, hold]
      · have hold : (s.notifications source)[i] = .critical :=
          Option.some.inj ((hcritical (by simp [hone])).resolve_left hc)
        have hpos : 0 < (s.notifications source).countP (· = .critical) :=
          List.countP_pos_iff.mpr ⟨_, List.getElem_mem hi, by simp [hold]⟩
        simp only [hc, hold, decide_true, decide_false, if_true, if_false, Bool.false_eq_true]
        omega
    rw [State.setUrgency, hone]
    refine h.count hone hg hcount (fun hzero hpos => hbegins ?_ hzero g hmem)
      fun hpos hzero => hends ?_ ?_ g hmem
    · by_contra hc
      rw [if_neg hc] at hpos
      omega
    · intro hc
      rw [if_pos hc] at hcount
      omega
    · split at hcount
      · omega
      · omega

theorem Inv.step {e : Event} (h : Inv s) (hcareful : Careful s e) (hstep : step s e = some t) :
    Inv t := by
  cases e with
  | addNotification source urgency =>
    obtain rfl := Option.some.inj hstep
    exact h.addNotification hcareful
  | removeNotification source i =>
    obtain ⟨urgency, hi, rfl⟩ := Option.map_eq_some_iff.mp hstep
    exact h.removeNotification hi fun hc => hcareful (hc ▸ hi)
  | setUrgency source i urgency =>
    obtain ⟨⟨hi, hnew⟩, heq⟩ := Option.ite_none_right_eq_some.mp hstep
    obtain rfl := Option.some.inj heq
    exact h.setUrgency hi hnew hcareful
  | addNotificationSource source =>
    obtain ⟨hnew, heq⟩ := Option.ite_none_right_eq_some.mp hstep
    obtain rfl := Option.some.inj heq
    exact h.addNotificationSource hnew hcareful
  | removeNotificationSource g =>
    obtain ⟨hg, heq⟩ := Option.ite_none_right_eq_some.mp hstep
    obtain rfl := Option.some.inj heq
    exact h.removeNotificationSource hg
  | addPlayer player =>
    obtain ⟨hnew, heq⟩ := Option.ite_none_right_eq_some.mp hstep
    obtain rfl := Option.some.inj heq
    exact h.addPlayer hnew.2
  | removePlayer player =>
    obtain ⟨hplayer, heq⟩ := Option.ite_none_right_eq_some.mp hstep
    obtain rfl := Option.some.inj heq
    exact h.removePlayer hplayer
  | complete m =>
    obtain ⟨pending, hm, rfl⟩ := Option.map_eq_some_iff.mp hstep
    cases pending with
    | move index =>
      simp only [Careful, hm] at hcareful
      exact h.completeMove hm hcareful
    | remove => exact h.completeRemove hm

instance Careful.decidable (s : State) (e : Event) : Decidable (Careful s e) := by
  unfold Careful
  split <;> first | infer_instance | (split <;> infer_instance)

end MessageList.Urgent
