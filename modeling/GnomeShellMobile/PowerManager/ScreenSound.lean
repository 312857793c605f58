import GnomeShellMobile.PowerManager.Screen

/-!
# PowerManager — the screen functions do what was asked last

`Screen.Sound` says of the lightbox, the guards and the pending work what the last call of
`_turnOffScreen` or `_turnOnScreen` that was not dropped makes of the screen: after the one the
screen goes dark, after the other it is lit and the sensor daemon's inhibition is given back.
The two functions keep it, and so does pending work as long as it does not undo a later call
(`ResumeSafe`).
-/

namespace PowerManager

/-- A fade-out that has reached its end and whose `_turnOffScreen` goes on. -/
def ScreenWork.finishedFade : ScreenWork → Bool
  | .fadeOutSettled _ finished => finished
  | .fadeOutReturned _ finished => finished
  | _ => false

def ScreenWork.isFadeOutSettled : ScreenWork → Bool
  | .fadeOutSettled _ _ => true
  | _ => false

def ScreenWork.isUninhibit : ScreenWork → Bool
  | .uninhibit => true
  | _ => false

def Fade.isFadeOut : Fade → Bool
  | .fadeOut _ => true
  | _ => false

namespace Screen

variable (s : Screen)

def KnowsLed (brightness : Nat) : Prop :=
  s.backlightLed = true → s.loginSession = true → 0 < brightness ∨ 0 < s.savedBacklight
deriving Decidable

/-- What is left of a `_turnOffScreen` does not go on after a later `_turnOnScreen`, nor the other
way round; the sensor daemon is not asked twice for its inhibition and gives it back; and the
LED's level is known. -/
def ResumeSafe (ok : Bool) (brightness : Nat) : ScreenWork → Prop
  | .fadeOutReturned _ finished =>
      finished = true →
        s.turnsOn = false ∧ (s.adaptiveBacklightInhibited = true → s.KnowsLed brightness)
  | .inhibit _ =>
      s.turnsOn = false ∧ (ok = true → s.adaptiveBacklightInhibited = false) ∧
        s.KnowsLed brightness
  | .uninhibit => s.turnsOn = true ∧ ok = true
  | _ => True

instance (ok : Bool) (brightness : Nat) (w : ScreenWork) :
    Decidable (s.ResumeSafe ok brightness w) :=
  match w with
  | .fadeOutReturned _ _ => inferInstanceAs (Decidable (_ → _ ∧ (_ → _)))
  | .inhibit _ => inferInstanceAs (Decidable (_ ∧ (_ → _) ∧ _))
  | .uninhibit => inferInstanceAs (Decidable (_ ∧ _))
  | .fadeOutSettled _ _ | .fadeInSettled => .isTrue trivial

def GoesDark : Prop :=
  s.lightbox.any Fade.isFadeOut = true ∨ (∃ w ∈ s.work, w.finishedFade = true) ∨
    s.powerSaveMode = 3

structure Booked : Prop where
  count : s.adaptiveInhibits =
    (if s.adaptiveBacklightInhibited then 1 else 0) + s.work.countP ScreenWork.isUninhibit
  led : s.ledWritten = some 0 → s.backlightLed = true ∧ s.loginSession = true ∧ 0 < s.savedBacklight
  noTimeout : s.fadeInTimeout = false
  fadingIn : s.fadingIn = true → s.lightbox = some .fadeIn ∨ .fadeInSettled ∈ s.work
  fadingOut : s.fadingOut = true →
    s.lightbox.any Fade.isFadeOut = true ∨ ∃ w ∈ s.work, w.isFadeOutSettled = true

structure Sound : Prop extends Booked s where
  on : s.turnsOn = true → s.adaptiveBacklightInhibited = false ∧
    (.uninhibit ∈ s.work ∨ s.powerSaveMode = 0 ∧ s.ledWritten ≠ some 0)
  off : s.turnsOn = false → s.GoesDark

variable {s : Screen}

/-! ## Transitions of the lightbox -/

def stopped : Option Fade → List ScreenWork
  | some (.fadeOut owner) => [.fadeOutSettled owner false]
  | some .fadeIn => [.fadeInSettled]
  | _ => []

theorem removeAllTransitions_eq : s.removeAllTransitions =
    { s with lightbox := none, work := stopped s.lightbox ++ s.work } := by
  unfold Screen.removeAllTransitions
  split <;> rename_i hl
  all_goals simp [Screen.push, stopped, hl]
  rw [← hl]

theorem easeLightbox_eq (f : Fade) : s.easeLightbox f =
    { s with lightbox := some f, work := stopped s.lightbox ++ s.work } := by
  simp [Screen.easeLightbox, removeAllTransitions_eq]

theorem countP_stopped (l : Option Fade) : (stopped l).countP ScreenWork.isUninhibit = 0 := by
  unfold stopped
  split <;> rfl

theorem mem_stopped_of_fadingIn {l : Option Fade} {work : List ScreenWork}
    (h : l = some .fadeIn ∨ .fadeInSettled ∈ work) : .fadeInSettled ∈ stopped l ++ work := by
  rcases h with rfl | h
  · exact List.mem_cons_self
  · exact List.mem_append_right _ h

theorem mem_stopped_of_fadingOut {l : Option Fade} {work : List ScreenWork}
    (h : l.any Fade.isFadeOut = true ∨ ∃ w ∈ work, w.isFadeOutSettled = true) :
    ∃ w ∈ stopped l ++ work, w.isFadeOutSettled = true := by
  rcases h with h | ⟨w, hw, hs⟩
  · cases l with
    | none => cases h
    | some f =>
        cases f with
        | fadeOut owner => exact ⟨_, List.mem_cons_self, rfl⟩
        | fadeIn | dim | undim => cases h
  · exact ⟨w, List.mem_append_right _ hw, hs⟩

section

variable (h : s.Booked)
include h

theorem Booked.congr {s' : Screen}
    (hv : (s'.adaptiveInhibits, s'.adaptiveBacklightInhibited, s'.work, s'.ledWritten,
      s'.backlightLed, s'.loginSession, s'.savedBacklight, s'.fadeInTimeout, s'.fadingIn,
      s'.fadingOut, s'.lightbox) = (s.adaptiveInhibits, s.adaptiveBacklightInhibited, s.work,
      s.ledWritten, s.backlightLed, s.loginSession, s.savedBacklight, s.fadeInTimeout, s.fadingIn,
      s.fadingOut, s.lightbox)) : s'.Booked := by
  simp only [Prod.mk.injEq] at hv
  obtain ⟨hi, ha, hw, hl, hb, hg, hs, ht, hin, hout, hx⟩ := hv
  refine ⟨?_, ?_, ?_, ?_, ?_⟩
  · rw [hi, ha, hw]
    exact h.count
  · rw [hl, hb, hg, hs]
    exact h.led
  · rw [ht]
    exact h.noTimeout
  · rw [hin, hx, hw]
    exact h.fadingIn
  · rw [hout, hx, hw]
    exact h.fadingOut

theorem Booked.push {w : ScreenWork} (hw : w.isUninhibit = false) :
    (s.push w).Booked where
  __ := h
  count := by
    show s.adaptiveInhibits = _ + ((w :: s.work).countP ScreenWork.isUninhibit : Int)
    rw [List.countP_cons_of_neg (by simp [hw])]
    exact h.count
  fadingIn hf := (h.fadingIn hf).imp_right (List.mem_cons_of_mem _)
  fadingOut hf := (h.fadingOut hf).imp_right fun ⟨u, hu, hs⟩ => ⟨u, List.mem_cons_of_mem _ hu, hs⟩

theorem Booked.replace (l : Option Fade) :
    { s with lightbox := l, work := stopped s.lightbox ++ s.work }.Booked where
  __ := h
  count := by
    have hcount := h.count
    simpa [List.countP_append, countP_stopped] using hcount
  fadingIn hf := Or.inr (mem_stopped_of_fadingIn (h.fadingIn hf))
  fadingOut hf := Or.inr (mem_stopped_of_fadingOut (h.fadingOut hf))

theorem Booked.removeAllTransitions : s.removeAllTransitions.Booked := by
  rw [removeAllTransitions_eq]
  exact h.replace _

theorem Booked.easeLightbox (f : Fade) : (s.easeLightbox f).Booked := by
  rw [easeLightbox_eq]
  exact h.replace _

theorem Booked.fadeOut (owner : Option Nat) : (s.fadeOut owner).Booked := by
  have hr := h.easeLightbox (.fadeOut owner)
  unfold Screen.fadeOut
  rw [easeLightbox_eq] at hr ⊢
  exact {
    __ := hr
    noTimeout := rfl
    fadingOut := fun _ => Or.inl rfl }

theorem Booked.fadeIn : s.fadeIn.Booked := by
  have hr := h.easeLightbox .fadeIn
  unfold Screen.fadeIn
  split
  · exact h
  · rw [easeLightbox_eq] at hr ⊢
    exact {
      __ := hr
      fadingIn := fun _ => Or.inl rfl
      fadingOut := hr.fadingOut }

end

theorem fadeIn_frame : s.fadeIn.turnsOn = s.turnsOn ∧ s.fadeIn.asksOn = s.asksOn ∧
    s.fadeIn.adaptiveBacklightInhibited = s.adaptiveBacklightInhibited ∧
    s.fadeIn.powerSaveMode = s.powerSaveMode ∧ s.fadeIn.ledWritten = s.ledWritten := by
  unfold Screen.fadeIn
  split
  · simp
  · simp [easeLightbox_eq]

/-! ## Turning the screen on -/

theorem Booked.turnOnRest (h : s.Booked) : s.turnOnRest.Booked ∧
    s.turnOnRest.powerSaveMode = 0 ∧ s.turnOnRest.ledWritten ≠ some 0 := by
  unfold Screen.turnOnRest
  extract_lets s₁
  have h₁ : { s₁ with powerSaveMode := 0 }.Booked ∧ s₁.ledWritten ≠ some 0 := by
    unfold s₁
    split
    · rename_i hc
      have hsaved : 0 < s.savedBacklight := by simp_all
      have hne : some s.savedBacklight ≠ some 0 := by
        simp only [ne_eq, Option.some.injEq]
        omega
      exact ⟨{ h with led := fun hz => absurd hz hne }, hne⟩
    · rename_i hc
      refine ⟨h.congr rfl, fun hz => hc ?_⟩
      obtain ⟨hb, hg, hs⟩ := h.led hz
      simp [hb, hg, hs]
  obtain ⟨-, -, -, hmode, hled⟩ := fadeIn_frame (s := { s₁ with powerSaveMode := 0 })
  exact ⟨h₁.1.fadeIn, hmode, by rw [hled]; exact h₁.2⟩

theorem turnOnRest_frame : s.turnOnRest.turnsOn = s.turnsOn ∧ s.turnOnRest.asksOn = s.asksOn ∧
    s.turnOnRest.adaptiveBacklightInhibited = s.adaptiveBacklightInhibited := by
  unfold Screen.turnOnRest
  extract_lets s₁
  obtain ⟨hturns, hasks, hheld, -, -⟩ := fadeIn_frame (s := { s₁ with powerSaveMode := 0 })
  rw [hturns, hasks, hheld]
  unfold s₁
  split <;> simp

theorem Booked.turnOnRest_sound (h : s.Booked) (hturns : s.turnsOn = true)
    (hheld : s.adaptiveBacklightInhibited = false) : s.turnOnRest.Sound := by
  obtain ⟨hb, hmode, hled⟩ := h.turnOnRest
  obtain ⟨hsame, -, hkept⟩ := turnOnRest_frame (s := s)
  refine ⟨hb, fun _ => ⟨by rw [hkept, hheld], Or.inr ⟨hmode, hled⟩⟩, fun hoff => ?_⟩
  rw [hsame, hturns] at hoff
  cases hoff

/-- **Turning on.** Either the call is dropped while a fade-in is on its way, or the screen is
going to be lit. -/
theorem Sound.turnOnScreen (h : s.Sound) : s.turnOnScreen.Sound ∧ s.turnOnScreen.asksOn = true ∧
    (s.turnOnScreen.turnsOn = true ∨ s.turnOnScreen.fadingIn = true) := by
  have hasked : { s with asksOn := true }.Sound :=
    { h with on := h.on, off := h.off }
  unfold Screen.turnOnScreen
  extract_lets s₁ s₂
  have hb : s₂.Booked := Booked.removeAllTransitions (s := { s₁ with turnsOn := true }) (h.toBooked.congr rfl)
  have hturns : s₂.turnsOn = true := by simp [s₂, removeAllTransitions_eq]
  have hasks : s₂.asksOn = true := by simp [s₂, s₁, removeAllTransitions_eq]
  split
  · rename_i hdropped
    refine ⟨hasked, rfl, Or.inr ?_⟩
    simpa [s₁, h.noTimeout] using hdropped
  · split
    · rename_i hheld
      refine ⟨⟨?_, fun _ => ⟨rfl, Or.inl List.mem_cons_self⟩, fun hoff => ?_⟩, hasks, Or.inl hturns⟩
      · exact {
          __ := hb
          count := by
            have hcount := hb.count
            simp only [hheld, ↓reduceIte] at hcount
            show s₂.adaptiveInhibits =
              0 + ((.uninhibit :: s₂.work).countP ScreenWork.isUninhibit : Int)
            rw [List.countP_cons_of_pos rfl]
            omega
          fadingIn := fun hf => (hb.fadingIn hf).imp_right (List.mem_cons_of_mem _)
          fadingOut := fun hf => (hb.fadingOut hf).imp_right fun ⟨u, hu, hs⟩ =>
            ⟨u, List.mem_cons_of_mem _ hu, hs⟩ }
      · have : s₂.turnsOn = false := hoff
        rw [hturns] at this
        cases this
    · rename_i hheld
      obtain ⟨hsame, hask, -⟩ := turnOnRest_frame (s := s₂)
      exact ⟨hb.turnOnRest_sound hturns (by simpa using hheld), by rw [hask, hasks],
        Or.inl (by rw [hsame, hturns])⟩

/-! ## Turning the screen off -/

/-- **Turning off.** Either the call is dropped while a fade-out is on its way, or the screen is
going to be dark. -/
theorem Sound.turnOffScreen (h : s.Sound) (owner : Option Nat) : (s.turnOffScreen owner).Sound ∧
    (s.turnOffScreen owner).asksOn = false ∧
    ((s.turnOffScreen owner).turnsOn = false ∨ (s.turnOffScreen owner).fadingOut = true) := by
  have hasked : { s with asksOn := false }.Sound :=
    { h with on := h.on, off := h.off }
  unfold Screen.turnOffScreen
  extract_lets s₁
  split
  · rename_i hdropped
    exact ⟨hasked, rfl, Or.inr hdropped⟩
  · have hb : { s₁ with turnsOn := false }.Booked := h.toBooked.congr rfl
    have hf := hb.removeAllTransitions.fadeOut owner
    have hturns : ({ s₁ with turnsOn := false }.removeAllTransitions.fadeOut owner).turnsOn = false := by
      simp [Screen.fadeOut, easeLightbox_eq, removeAllTransitions_eq]
    refine ⟨⟨hf, fun hon => ?_, fun _ => Or.inl rfl⟩, ?_, Or.inl hturns⟩
    · rw [hturns] at hon
      cases hon
    · simp [Screen.fadeOut, easeLightbox_eq, removeAllTransitions_eq, s₁]

theorem Booked.turnOffLed (h : s.Booked) {brightness : Nat} (hknown : s.KnowsLed brightness) :
    (s.turnOffLed brightness).Booked := by
  unfold Screen.turnOffLed
  split
  · rename_i hc
    obtain ⟨hled, hsession⟩ := Bool.and_eq_true_iff.mp hc
    refine { h with led := fun _ => ⟨hled, hsession, ?_⟩ }
    have := hknown hled hsession
    dsimp only
    split <;> omega
  · exact h

theorem turnOffLed_frame (brightness : Nat) : (s.turnOffLed brightness).turnsOn = s.turnsOn ∧
      (s.turnOffLed brightness).asksOn = s.asksOn ∧
      (s.turnOffLed brightness).lightbox = s.lightbox ∧
      (s.turnOffLed brightness).work = s.work ∧
      (s.turnOffLed brightness).powerSaveMode = s.powerSaveMode := by
  unfold Screen.turnOffLed
  split <;> simp

theorem Booked.sound_of_off (h : s.Booked) (hturns : s.turnsOn = false) (hdark : s.GoesDark) :
    s.Sound :=
  ⟨h, fun hon => by simp [hturns] at hon, fun _ => hdark⟩

theorem Booked.turnOffLed_sound (h : s.Booked) {brightness : Nat} (hknown : s.KnowsLed brightness)
    (hturns : s.turnsOn = false) (hdark : s.GoesDark) : (s.turnOffLed brightness).Sound := by
  obtain ⟨hsame, -, hlight, hwork, hmode⟩ := turnOffLed_frame (s := s) brightness
  refine (h.turnOffLed hknown).sound_of_off (by rw [hsame, hturns]) ?_
  unfold GoesDark
  rw [hlight, hwork, hmode]
  exact hdark

/-! ## The lightbox and the pending work -/

theorem Sound.easeLightbox (h : s.Sound) (hturns : s.turnsOn = true) (f : Fade) :
    (s.easeLightbox f).Sound := by
  have hb := h.toBooked.easeLightbox f
  rw [easeLightbox_eq] at hb ⊢
  obtain ⟨hheld, hlit⟩ := h.on hturns
  exact ⟨hb, fun _ => ⟨hheld, hlit.imp_left (List.mem_append_right _)⟩,
    fun hoff => by simp [hturns] at hoff⟩

theorem Sound.cursor (h : s.Sound) (invisible : Bool) (inhibits : Int) :
    { s with cursorInvisible := invisible, cursorInhibits := inhibits }.Sound :=
  { h with on := h.on, off := h.off }

theorem Sound.dim (h : s.Sound) (hturns : s.turnsOn = true) : s.dim.Sound :=
  (h.cursor true (s.cursorInhibits + 1)).easeLightbox hturns _

theorem Sound.undim (h : s.Sound) (hturns : s.turnsOn = true) : s.undim.Sound :=
  (h.cursor false (s.cursorInhibits - 1)).easeLightbox hturns _

theorem dim_asks : s.dim.asksOn = s.asksOn ∧ s.dim.turnsOn = s.turnsOn := by
  simp [Screen.dim, easeLightbox_eq]

theorem undim_asks : s.undim.asksOn = s.asksOn ∧ s.undim.turnsOn = s.turnsOn := by
  simp [Screen.undim, easeLightbox_eq]

theorem Sound.lightboxStopped (h : s.Sound) {s' : Screen} (hstop : s.lightboxStopped = some s') :
    s'.Sound ∧ s'.asksOn = s.asksOn ∧ s'.turnsOn = s.turnsOn ∧
      s'.fadingIn = s.fadingIn ∧ s'.fadingOut = s.fadingOut := by
  unfold Screen.lightboxStopped at hstop
  have hin := h.fadingIn
  have hout := h.fadingOut
  split at hstop
  · rename_i owner hl
    cases hstop
    rw [hl] at hin hout
    refine ⟨⟨⟨?_, h.led, h.noTimeout, fun hf => ?_, fun _ => ?_⟩, fun hon => ?_, fun _ => ?_⟩,
      rfl, rfl, rfl, rfl⟩
    · show s.adaptiveInhibits =
        _ + ((ScreenWork.fadeOutSettled owner true :: s.work).countP ScreenWork.isUninhibit : Int)
      rw [List.countP_cons_of_neg (by simp [ScreenWork.isUninhibit])]
      exact h.count
    · exact Or.inr (List.mem_cons_of_mem _ ((hin hf).resolve_left (by simp)))
    · exact Or.inr ⟨_, List.mem_cons_self, rfl⟩
    · exact ⟨(h.on hon).1, (h.on hon).2.imp_left (List.mem_cons_of_mem _)⟩
    · exact Or.inr (Or.inl ⟨_, List.mem_cons_self, rfl⟩)
  · rename_i hl
    cases hstop
    rw [hl] at hin hout
    refine ⟨⟨⟨?_, h.led, h.noTimeout, fun _ => Or.inr List.mem_cons_self, fun hf => ?_⟩,
      fun hon => ?_, fun hoff => ?_⟩, rfl, rfl, rfl, rfl⟩
    · show s.adaptiveInhibits =
        _ + ((ScreenWork.fadeInSettled :: s.work).countP ScreenWork.isUninhibit : Int)
      rw [List.countP_cons_of_neg (by simp [ScreenWork.isUninhibit])]
      exact h.count
    · obtain ⟨w, hw, hs⟩ := (hout hf).resolve_left (by simp [Fade.isFadeOut])
      exact Or.inr ⟨w, List.mem_cons_of_mem _ hw, hs⟩
    · exact ⟨(h.on hon).1, (h.on hon).2.imp_left (List.mem_cons_of_mem _)⟩
    · rcases h.off hoff with hd | ⟨w, hw, hf⟩ | hd
      · simp [hl, Fade.isFadeOut] at hd
      · exact Or.inr (Or.inl ⟨w, List.mem_cons_of_mem _ hw, hf⟩)
      · exact Or.inr (Or.inr hd)
  all_goals
    rename_i hl
    cases hstop
  all_goals
    rw [hl] at hin hout
    refine ⟨⟨⟨h.count, h.led, h.noTimeout, fun hf => Or.inr ((hin hf).resolve_left (by simp)),
      fun hf => Or.inr ((hout hf).resolve_left (by simp [Fade.isFadeOut]))⟩, h.on, fun hoff => ?_⟩,
      rfl, rfl, rfl, rfl⟩
    have hd := h.off hoff
    simp only [GoesDark, hl] at hd
    exact hd.imp_left fun hf => by simp [Fade.isFadeOut] at hf

theorem Booked.rest (h : s.Booked) {w : ScreenWork} {rest : List ScreenWork} {i : Nat}
    (htake : Runs.take s.work i = some (w, rest)) (hw : w.isUninhibit = false)
    (fadingIn fadingOut : Bool) (hin : fadingIn = true → s.fadingIn = true ∧ w ≠ .fadeInSettled)
    (hout : fadingOut = true → s.fadingOut = true ∧ w.isFadeOutSettled = false) :
    { s with work := rest, fadingIn := fadingIn, fadingOut := fadingOut }.Booked where
  __ := h
  count := by
    have hperm := (Runs.take_perm htake).countP_eq ScreenWork.isUninhibit
    rw [List.countP_cons_of_neg (by simp [hw])] at hperm
    rw [← hperm]
    exact h.count
  fadingIn hf := by
    obtain ⟨hs, hne⟩ := hin hf
    refine (h.fadingIn hs).imp_right fun hm => ?_
    exact (Runs.mem_cases_of_take htake hm).resolve_left fun he => hne he.symm
  fadingOut hf := by
    obtain ⟨hs, hne⟩ := hout hf
    refine (h.fadingOut hs).imp_right fun ⟨u, hu, hset⟩ => ⟨u, ?_, hset⟩
    refine (Runs.mem_cases_of_take htake hu).resolve_left fun he => ?_
    rw [he, hne] at hset
    cases hset

theorem goesDark_rest {w : ScreenWork} {rest : List ScreenWork} {i : Nat}
    (htake : Runs.take s.work i = some (w, rest)) (hw : w.finishedFade = false) (hd : s.GoesDark) :
    { s with work := rest }.GoesDark := by
  refine hd.imp_right fun hd => hd.imp_left fun ⟨u, hu, hf⟩ => ⟨u, ?_, hf⟩
  refine (Runs.mem_cases_of_take htake hu).resolve_left fun he => ?_
  rw [he, hw] at hf
  cases hf

theorem Sound.rest (h : s.Sound) {w : ScreenWork} {rest : List ScreenWork} {i : Nat}
    (htake : Runs.take s.work i = some (w, rest)) (hw : w.isUninhibit = false)
    (hfade : s.turnsOn = false → w.finishedFade = false)
    (fadingIn fadingOut : Bool) (hin : fadingIn = true → s.fadingIn = true ∧ w ≠ .fadeInSettled)
    (hout : fadingOut = true → s.fadingOut = true ∧ w.isFadeOutSettled = false) :
    { s with work := rest, fadingIn := fadingIn, fadingOut := fadingOut }.Sound where
  toBooked := h.toBooked.rest htake hw fadingIn fadingOut hin hout
  on hon := by
    refine ⟨(h.on hon).1, (h.on hon).2.imp_left fun hm => ?_⟩
    refine (Runs.mem_cases_of_take htake hm).resolve_left fun he => ?_
    rw [← he] at hw
    cases hw
  off hoff := goesDark_rest htake (hfade hoff) (h.off hoff)

theorem Sound.resume_uninhibit (h : s.Sound) {rest : List ScreenWork} {i : Nat}
    (htake : Runs.take s.work i = some (.uninhibit, rest)) (hturns : s.turnsOn = true) :
    ({ s with work := rest, adaptiveInhibits := s.adaptiveInhibits - 1 }.turnOnRest).Sound := by
  obtain ⟨hheld, -⟩ := h.on hturns
  have hperm := (Runs.take_perm htake).countP_eq ScreenWork.isUninhibit
  rw [List.countP_cons_of_pos rfl] at hperm
  refine Booked.turnOnRest_sound (s := { s with
    work := rest, adaptiveInhibits := s.adaptiveInhibits - 1 }) ?_ hturns hheld
  exact {
    __ := h
    count := by
      have hcount := h.count
      dsimp only
      omega
    fadingIn := fun hf => (h.fadingIn hf).imp_right fun hm =>
      (Runs.mem_cases_of_take htake hm).resolve_left (by simp)
    fadingOut := fun hf => (h.fadingOut hf).imp_right fun ⟨u, hu, hs⟩ => by
      refine ⟨u, (Runs.mem_cases_of_take htake hu).resolve_left fun he => ?_, hs⟩
      rw [he] at hs
      cases hs }

/-- **Pending work keeps the books** if it does not undo a later call. -/
theorem Sound.resumeWork (h : s.Sound) {i : Nat} {ok : Bool} {brightness : Nat} {s' : Screen}
    (hsafe : ∀ w ∈ s.work[i]?, s.ResumeSafe ok brightness w)
    (hresume : s.resumeWork i ok brightness = some s') :
    s'.Sound ∧ s'.asksOn = s.asksOn ∧ s'.turnsOn = s.turnsOn := by
  obtain ⟨⟨w, rest⟩, htake, rfl⟩ := Option.map_eq_some_iff.mp hresume
  have hok := hsafe w (by simp [Runs.getElem?_of_take htake])
  dsimp only
  cases w with
  | fadeOutSettled owner finished =>
      refine ⟨⟨?_, fun hon => ?_, fun hoff => ?_⟩, rfl, rfl⟩
      · exact Booked.push (h.toBooked.rest htake rfl s.fadingIn false
          (fun hf => ⟨hf, by simp⟩) (by simp)) rfl
      · refine ⟨(h.on hon).1, (h.on hon).2.imp_left fun hm => List.mem_cons_of_mem _ ?_⟩
        exact (Runs.mem_cases_of_take htake hm).resolve_left (by simp)
      · rcases h.off hoff with hd | ⟨u, hu, hf⟩ | hd
        · exact Or.inl hd
        · rcases Runs.mem_cases_of_take htake hu with rfl | hu
          · exact Or.inr (Or.inl ⟨.fadeOutReturned owner finished, List.mem_cons_self, hf⟩)
          · exact Or.inr (Or.inl ⟨u, List.mem_cons_of_mem _ hu, hf⟩)
        · exact Or.inr (Or.inr hd)
  | fadeOutReturned owner finished =>
      have hb : { s with work := rest }.Booked := h.toBooked.rest htake rfl _ _
        (fun hf => ⟨hf, by simp⟩) (fun hf => ⟨hf, rfl⟩)
      cases finished with
      | false =>
          exact ⟨h.rest htake rfl (fun _ => rfl) _ _ (fun hf => ⟨hf, by simp⟩) (fun hf => ⟨hf, rfl⟩),
            rfl, rfl⟩
      | true =>
          obtain ⟨hturns, hknown⟩ := hok rfl
          have hdark : { s with work := rest, powerSaveMode := 3 }.Booked := hb.congr rfl
          simp only [Screen.resume, ↓reduceIte]
          split
          · rename_i hheld
            obtain ⟨hsame, hasks, -⟩ :=
              turnOffLed_frame (s := { s with work := rest, powerSaveMode := 3 }) brightness
            exact ⟨hdark.turnOffLed_sound (hknown hheld) hturns (Or.inr (Or.inr rfl)), hasks, hsame⟩
          · exact ⟨(hdark.push rfl).sound_of_off hturns (Or.inr (Or.inr rfl)), rfl, rfl⟩
  | inhibit owner =>
      obtain ⟨hturns, hfree, hknown⟩ := hok
      have hb : { s with work := rest }.Booked := h.toBooked.rest htake rfl _ _
        (fun hf => ⟨hf, by simp⟩) (fun hf => ⟨hf, rfl⟩)
      have hdark : { s with work := rest }.GoesDark := goesDark_rest htake rfl (h.off hturns)
      simp only [Screen.resume]
      split
      · rename_i hgranted
        have hgrant : { s with
            work := rest
            adaptiveBacklightInhibited := true
            adaptiveInhibits := s.adaptiveInhibits + 1 }.Booked := {
          __ := hb
          count := by
            have hcount := hb.count
            simp only [hfree hgranted, Bool.false_eq_true, ↓reduceIte] at hcount ⊢
            omega
          fadingOut := hb.fadingOut }
        obtain ⟨hsame, hasks, -⟩ := turnOffLed_frame (s := { s with
          work := rest
          adaptiveBacklightInhibited := true
          adaptiveInhibits := s.adaptiveInhibits + 1 }) brightness
        exact ⟨hgrant.turnOffLed_sound hknown hturns hdark, hasks, hsame⟩
      · obtain ⟨hsame, hasks, -⟩ := turnOffLed_frame (s := { s with work := rest }) brightness
        exact ⟨hb.turnOffLed_sound hknown hturns hdark, hasks, hsame⟩
  | uninhibit =>
      obtain ⟨hturns, rfl⟩ := hok
      obtain ⟨hsame, hasks, -⟩ := turnOnRest_frame (s := { s with
        work := rest, adaptiveInhibits := s.adaptiveInhibits - 1 })
      exact ⟨h.resume_uninhibit htake hturns, hasks, hsame⟩
  | fadeInSettled =>
      exact ⟨h.rest htake rfl (fun _ => rfl) false s.fadingOut (by simp) fun hf => ⟨hf, rfl⟩, rfl, rfl⟩

/-! ## At rest -/

theorem Sound.at_rest (h : s.Sound) (hlight : s.lightbox = none) (hwork : s.work = []) :
    (s.turnsOn = true → s.powerSaveMode = 0 ∧ s.ledWritten ≠ some 0 ∧ s.adaptiveInhibits = 0) ∧
      (s.turnsOn = false → s.powerSaveMode = 3) := by
  refine ⟨fun hon => ?_, fun hoff => ?_⟩
  · obtain ⟨hheld, hlit⟩ := h.on hon
    have hcount := h.count
    simp only [hheld, hwork, Bool.false_eq_true, ↓reduceIte, List.countP_nil] at hcount
    obtain ⟨hmode, hled⟩ := hlit.resolve_left (by simp [hwork])
    exact ⟨hmode, hled, by simpa using hcount⟩
  · rcases h.off hoff with hd | ⟨w, hw, -⟩ | hd
    · simp [hlight] at hd
    · simp [hwork] at hw
    · exact hd

theorem Booked.guards_at_rest (h : s.Booked) (hlight : s.lightbox = none) (hwork : s.work = []) :
    s.fadingIn = false ∧ s.fadingOut = false := by
  refine ⟨Bool.eq_false_iff.mpr fun hf => ?_, Bool.eq_false_iff.mpr fun hf => ?_⟩
  · have := h.fadingIn hf
    simp [hlight, hwork] at this
  · have := h.fadingOut hf
    simp [hlight, hwork] at this

end Screen

end PowerManager
