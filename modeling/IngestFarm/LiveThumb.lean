/-
# Live previews

The component `LiveThumb` of the web interface, which shows the thumbnail of a live channel.  At
every tick it loads a new frame off the page and swaps it in when it is complete.  Ticks are those
of an effect, at its begin, at every interval and whenever the tab becomes visible; the clean-up
of the effect cancels the frames that are still loading.  Between a render and its effects frames
may arrive and the timer may fire.

A frame is its number in the order of the requests; the text of its source is the URL with the
time of the request.  What the page shows never steps back to an overtaken frame
(`frames_never_step_back`), does not go blank while the channel is live (`preview_stays`), and a
hidden tab asks for no frames (`hidden_tab_is_quiet`).
-/
import IngestFarm.Runs

namespace LiveThumb

open Runs

/-- An image that loads off the page: the effect that made it, the URL, and whether it was
loaded or failed. -/
structure Image where
  /-- The effect that has made it. -/
  effect : ℕ
  /-- The URL that it loads. -/
  url : String
  /-- Whether it was loaded or failed, once it has. -/
  loaded : Option Bool

/-- The component: its props, those that the effect ran with, the number of the effect whose
`cancelled` is false, its timer, and the state. -/
structure Thumb where
  /-- The prop of the last render. -/
  url : Option String
  /-- So is this. -/
  intervalMs : ℕ
  /-- The props that the effect ran with, once it has. -/
  ran : Option (Option String × ℕ)
  /-- The number of the effect that is not cancelled. -/
  effect : ℕ
  /-- Its interval is set. -/
  timer : Bool
  /-- The tab is hidden. -/
  hidden : Bool
  /-- All images, in the order of their requests. -/
  images : List Image
  /-- The one whose handlers are not taken off. -/
  pending : Option ℕ
  /-- A frame was shown. -/
  hadImage : Bool
  /-- The last attempt has failed and none was shown before. -/
  failed : Bool
  /-- The frame on the page. -/
  src : Option ℕ

/-- What happens to a component. -/
inductive Action where
  /-- The timer fires. -/
  | interval
  /-- The tab becomes visible or hidden. -/
  | visibility (hidden : Bool)
  /-- The component is rendered, with new props perhaps. -/
  | render (url : Option String) (intervalMs : ℕ)
  /-- The effects of the last render run. -/
  | effects
  /-- An image is complete. -/
  | load (i : ℕ)
  /-- An image has failed. -/
  | error (i : ℕ)
  /-- The image on the page has failed. -/
  | imgError
  deriving DecidableEq

/-- A URL that is not falsy. -/
def present (url : Option String) : Option String := url.filter (· ≠ "")

/-- The first render. -/
def mount (url : Option String) (intervalMs : ℕ) (hidden : Bool) : Thumb :=
  ⟨url, intervalMs, none, 0, false, hidden, [], none, false, false, none⟩

namespace Thumb

/-- The URL of the effect that has run. -/
def effectUrl (s : Thumb) : Option String := s.ran.bind fun deps => present deps.1

/-- `tick`: a new image off the page, which is the pending one from now on. -/
def tick (s : Thumb) (url : String) : Thumb :=
  { s with images := s.images ++ [⟨s.effect, url, none⟩], pending := some s.images.length }

/-- `start`: the timer runs. -/
def start (s : Thumb) : Thumb := { s with timer := true }

/-- `stop`: the timer stands; frames that are still loading are not touched. -/
def stop (s : Thumb) : Thumb := { s with timer := false }

/-- `onVisibility`: a tab that is hidden stops the timer, and one that is shown asks for a frame at
once. -/
def onVisibility (s : Thumb) (url : String) : Thumb :=
  if s.hidden then s.stop else (s.tick url).start

/-- The clean-up of an effect with a URL. -/
def cleanUp (s : Thumb) : Thumb := { s.stop with effect := s.effect + 1, pending := none }

/-- The effect without a URL. -/
def clear (s : Thumb) : Thumb :=
  { s with src := none, failed := false, hadImage := false, pending := none }

/-- The effect with a URL. -/
def beginEffect (s : Thumb) (url : String) : Thumb :=
  let s := s.tick url
  if s.hidden then s else s.start

/-- React cleans up after the last effect and remembers the dependencies of the next one. -/
def renew (s : Thumb) : Thumb :=
  { (if s.effectUrl.isSome then s.cleanUp else s) with ran := some (s.url, s.intervalMs) }

/-- React runs the effect if its dependencies have changed. -/
def effects (s : Thumb) : Thumb :=
  if s.ran = some (s.url, s.intervalMs) then s
  else match present s.url with
    | none => s.renew.clear
    | some url => s.renew.beginEffect url

/-- Image `i` has loaded or failed. -/
def settle (s : Thumb) (i : ℕ) (ok : Bool) : Thumb :=
  { s with images := s.images.modify i fun image => { image with loaded := some ok } }

/-- `onload`: the frame is swapped in, and a failure before it is forgotten. -/
def onload (s : Thumb) (i : ℕ) : Thumb :=
  { s with hadImage := true, failed := false, src := some i }

/-- `onerror`: only a preview that never showed a frame says that it has none. -/
def onerror (s : Thumb) : Thumb := if s.hadImage then s else { s with failed := true }

/-- An image that is still loading loads or fails; its handler does something unless it is
cancelled or overtaken. -/
def answer (s : Thumb) (i : ℕ) (ok : Bool) (handler : Thumb → Thumb) : Option Thumb :=
  match s.images[i]? with
  | none => none
  | some image =>
    if image.loaded.isSome then none
    else if image.effect = s.effect ∧ s.pending = some i then some (handler (s.settle i ok))
    else some (s.settle i ok)

/-- The frame on the page; `none` is the text "No preview". -/
def shown (s : Thumb) : Option ℕ :=
  if present s.url = none ∨ (s.failed = true ∧ s.hadImage = false) then none else s.src

end Thumb

/-- A step of the component.  React runs the effects of one change of the props before it renders
the next one. -/
def step (s : Thumb) : Action → Option Thumb
  | .interval => if s.timer then s.effectUrl.map s.tick else none
  | .visibility hidden =>
    let s := { s with hidden := hidden }
    some (match s.effectUrl with
      | none => s
      | some url => s.onVisibility url)
  | .render url intervalMs =>
    if s.ran = some (s.url, s.intervalMs) then
      some { s with url := url, intervalMs := intervalMs }
    else none
  | .effects => some s.effects
  | .load i => s.answer i true fun s => s.onload i
  | .error i => s.answer i false Thumb.onerror
  | .imgError => if s.shown.isSome then some s.onerror else none

/-- An effect with a URL begins in this step: `.effects` where the dependencies are the old ones, or
where there is no URL, begins none. -/
def begins (s : Thumb) (a : Action) : ℕ :=
  if a = .effects ∧ s.ran ≠ some (s.url, s.intervalMs) ∧ (present s.url).isSome = true then 1 else 0

/-- The effects with a URL that begin in a run. -/
def begun : Thumb → List Action → ℕ
  | _, [] => 0
  | s, a :: as => begins s a + (step s a).elim 0 fun s' => begun s' as

/-! ## What a step does -/

/-- Image `i` is still loading. -/
def Thumb.Loading (s : Thumb) (i : ℕ) : Prop :=
  ∃ image, s.images[i]? = some image ∧ image.loaded = none

/-- **The moves of the component**: all that a step can do. -/
inductive Moves (s : Thumb) : Action → Thumb → Prop
  | tick {url : String} (htimer : s.timer = true) (hurl : s.effectUrl = some url) :
      Moves s .interval (s.tick url)
  | idle {hidden : Bool} (hurl : s.effectUrl = none) :
      Moves s (.visibility hidden) { s with hidden := hidden }
  | visibility {hidden : Bool} {url : String} (hurl : s.effectUrl = some url) :
      Moves s (.visibility hidden) (Thumb.onVisibility { s with hidden := hidden } url)
  | render {url : Option String} {intervalMs : ℕ} :
      Moves s (.render url intervalMs) { s with url := url, intervalMs := intervalMs }
  | same : Moves s .effects s
  | clear (hurl : present s.url = none) : Moves s .effects s.renew.clear
  | begin {url : String} (hurl : present s.url = some url) :
      Moves s .effects (s.renew.beginEffect url)
  | loaded {i : ℕ} (hi : s.Loading i) : Moves s (.load i) (s.settle i true)
  | load {i : ℕ} (hi : s.Loading i) (hpending : s.pending = some i) :
      Moves s (.load i) ((s.settle i true).onload i)
  | failed {i : ℕ} (hi : s.Loading i) : Moves s (.error i) (s.settle i false)
  | error {i : ℕ} (hi : s.Loading i) (hpending : s.pending = some i) :
      Moves s (.error i) (s.settle i false).onerror
  | imgError : Moves s .imgError s.onerror

/-- An answer is of an image that was loading, and its handler runs only for the pending one. -/
theorem answer_cases {s s' : Thumb} {i : ℕ} {ok : Bool} {handler : Thumb → Thumb}
    (h : s.answer i ok handler = some s') :
    s.Loading i ∧ (s' = s.settle i ok ∨ s.pending = some i ∧ s' = handler (s.settle i ok)) := by
  unfold Thumb.answer at h
  split at h
  · cases h
  · rename_i image himage
    split_ifs at h with hloaded hlive
    · rw [Option.not_isSome_iff_eq_none] at hloaded
      exact ⟨⟨image, himage, hloaded⟩, Or.inr ⟨hlive.2, (Option.some.inj h).symm⟩⟩
    · rw [Option.not_isSome_iff_eq_none] at hloaded
      exact ⟨⟨image, himage, hloaded⟩, Or.inl (Option.some.inj h).symm⟩

/-- **Every step is a move.** -/
theorem moves_of_step {s s' : Thumb} {a : Action} (h : step s a = some s') : Moves s a s' := by
  cases a with
  | interval =>
    simp only [step] at h
    split_ifs at h with htimer
    obtain ⟨url, hurl, rfl⟩ := Option.map_eq_some_iff.mp h
    exact .tick htimer hurl
  | visibility hidden =>
    simp only [step, Option.some.injEq] at h
    subst h
    split
    · rename_i hurl
      exact .idle hurl
    · rename_i url hurl
      exact .visibility hurl
  | render url intervalMs =>
    simp only [step] at h
    split_ifs at h
    obtain rfl := Option.some.inj h
    exact .render
  | effects =>
    obtain rfl := Option.some.inj h
    unfold Thumb.effects
    split_ifs
    · exact .same
    · split
      · rename_i hurl
        exact .clear hurl
      · rename_i url hurl
        exact .begin hurl
  | load i =>
    simp only [step] at h
    obtain ⟨hi, rfl | ⟨hpending, rfl⟩⟩ := answer_cases h
    · exact .loaded hi
    · exact .load hi hpending
  | error i =>
    simp only [step] at h
    obtain ⟨hi, rfl | ⟨hpending, rfl⟩⟩ := answer_cases h
    · exact .failed hi
    · exact .error hi hpending
  | imgError =>
    simp only [step] at h
    split_ifs at h
    obtain rfl := Option.some.inj h
    exact .imgError

/-! ## The invariant -/

/-- Image `i` is complete. -/
def Thumb.Complete (s : Thumb) (i : ℕ) : Prop :=
  ∃ image, s.images[i]? = some image ∧ image.loaded = some true

/-- **The invariant**: the pending image is the newest, the source is a complete one, and a
frame that was shown outweighs every failure. -/
structure Inv (s : Thumb) : Prop where
  /-- The pending image is the newest, and its effect has a URL. -/
  pending : ∀ i, s.pending = some i → i + 1 = s.images.length ∧ s.effectUrl.isSome
  /-- The frame on the page is complete. -/
  src : ∀ i, s.src = some i → s.Complete i ∧ s.hadImage = true
  /-- What was shown is still shown. -/
  hadImage : s.hadImage = true → s.src ≠ none ∧ s.failed = false ∧ s.effectUrl.isSome
  /-- The timer runs only in a visible tab, for an effect with a URL. -/
  timer : s.timer = true → s.hidden = false ∧ s.effectUrl.isSome

/-- What a step may do to the source and to the images: it keeps them, or puts in the newest. -/
structure Follows (s s' : Thumb) : Prop where
  grows : s.images.length ≤ s'.images.length
  newest : ∀ j, s'.src = some j → s.src = some j ∨ s.images.length ≤ j + 1

section Steps

variable {s s' : Thumb} {i j : ℕ} {url : String}

/-- The first render shows nothing and asks for nothing. -/
theorem inv_mount (url : Option String) (intervalMs : ℕ) (hidden : Bool) :
    Inv (mount url intervalMs hidden) where
  pending := fun _ h => by cases h
  src := fun _ h => by cases h
  hadImage := fun h => by cases h
  timer := fun h => by cases h

theorem Follows.refl (s : Thumb) : Follows s s := ⟨Nat.le_refl _, fun _ h => Or.inl h⟩

theorem Follows.trans {s'' : Thumb} (h : Follows s s') (h' : Follows s' s'') : Follows s s'' := by
  refine ⟨h.grows.trans h'.grows, fun j hj => ?_⟩
  rcases h'.newest j hj with hsame | hnew
  · exact h.newest j hsame
  · exact Or.inr (h.grows.trans hnew)

/-- The source stays or goes. -/
theorem Follows.of_src (hgrows : s.images.length ≤ s'.images.length)
    (hsrc : s'.src = s.src ∨ s'.src = none) : Follows s s' := by
  refine ⟨hgrows, fun j hj => Or.inl ?_⟩
  rcases hsrc with hsame | hnone
  · rwa [hsame] at hj
  · rw [hnone] at hj
    cases hj

/-- A frame that is complete stays complete when others are asked for. -/
theorem Thumb.Complete.append (h : s.Complete i) {image : Image}
    (himages : s'.images = s.images ++ [image]) : s'.Complete i := by
  obtain ⟨old, hold, hloaded⟩ := h
  refine ⟨old, ?_, hloaded⟩
  rw [himages, List.getElem?_append_left (List.getElem?_eq_some_iff.mp hold).1]
  exact hold

/-- A new image is the pending one, and belongs to the effect that runs. -/
theorem inv_tick (h : Inv s) (hurl : s.effectUrl.isSome) (url : String) : Inv (s.tick url) where
  pending := by
    intro i hi
    rw [← Option.some.inj hi]
    refine ⟨?_, hurl⟩
    show s.images.length + 1 = (s.images ++ [_]).length
    rw [List.length_append, List.length_singleton]
  src := fun i hi => ⟨(h.src i hi).1.append rfl, (h.src i hi).2⟩
  hadImage := fun hhad => ⟨(h.hadImage hhad).1, (h.hadImage hhad).2.1, hurl⟩
  timer := h.timer

theorem follows_tick (s : Thumb) (url : String) : Follows s (s.tick url) := by
  refine .of_src ?_ (Or.inl rfl)
  show s.images.length ≤ (s.images ++ [_]).length
  rw [List.length_append]
  omega

/-- An answer changes the image and nothing else. -/
theorem inv_settle (h : Inv s) (hi : s.Loading i) (ok : Bool) : Inv (s.settle i ok) where
  pending := by
    intro j hj
    refine ⟨?_, (h.pending j hj).2⟩
    rw [(h.pending j hj).1]
    exact (List.length_modify _ _ _).symm
  src := by
    intro j hj
    obtain ⟨⟨image, himage, hloaded⟩, hhad⟩ := h.src j hj
    refine ⟨⟨image, ?_, hloaded⟩, hhad⟩
    obtain ⟨loading, hloading, hnone⟩ := hi
    -- The source is complete, so it is not the image that settles.
    have hne : i ≠ j := by
      rintro rfl
      rw [himage, Option.some.injEq] at hloading
      rw [hloading, hnone] at hloaded
      cases hloaded
    show (s.images.modify i _)[j]? = some image
    rw [List.getElem?_modify, himage]
    simp [hne]
  hadImage := h.hadImage
  timer := h.timer

theorem follows_settle (s : Thumb) (i : ℕ) (ok : Bool) : Follows s (s.settle i ok) :=
  .of_src (List.length_modify _ _ _).ge (Or.inl rfl)

/-- A frame that has loaded is complete. -/
theorem complete_settle {image : Image} (himage : s.images[i]? = some image) :
    (s.settle i true).Complete i := by
  refine ⟨{ image with loaded := some true }, ?_, rfl⟩
  show (s.images.modify i _)[i]? = _
  rw [List.getElem?_modify, himage]
  simp

theorem inv_onerror (h : Inv s) : Inv s.onerror := by
  unfold Thumb.onerror
  split_ifs with hhad
  · exact h
  · exact ⟨h.pending, h.src, fun hhad' => absurd hhad' hhad, h.timer⟩

theorem follows_onerror (s : Thumb) : Follows s s.onerror := by
  unfold Thumb.onerror
  split_ifs
  · exact .refl s
  · exact .of_src (Nat.le_refl _) (Or.inl rfl)

/-- The frame that is swapped in is complete and was the last one asked for. -/
theorem inv_onload (h : Inv s) (hpending : s.pending = some i) (hcomplete : s.Complete i) :
    Inv (s.onload i) where
  pending := h.pending
  src := by
    intro j hj
    rw [← Option.some.inj hj]
    exact ⟨hcomplete, rfl⟩
  hadImage := fun _ => ⟨by simp [Thumb.onload], rfl, (h.pending i hpending).2⟩
  timer := h.timer

/-- What is swapped in is newer than all that had been asked for before. -/
theorem follows_onload (h : Inv s) (hpending : s.pending = some i) : Follows s (s.onload i) := by
  refine ⟨Nat.le_refl _, fun j hj => Or.inr ?_⟩
  rw [← Option.some.inj hj]
  exact (h.pending i hpending).1.ge

/-! ## The effect -/

theorem images_renew (s : Thumb) : s.renew.images = s.images := by
  unfold Thumb.renew
  split_ifs <;> rfl

theorem src_renew (s : Thumb) : s.renew.src = s.src := by
  unfold Thumb.renew
  split_ifs <;> rfl

/-- After the clean-up no frame is awaited. -/
theorem pending_renew (h : Inv s) : s.renew.pending = none := by
  unfold Thumb.renew
  split_ifs with hurl
  · rfl
  · cases hpending : s.pending with
    | none => rfl
    | some i => exact absurd (h.pending i hpending).2 hurl

/-- And no timer runs. -/
theorem timer_renew (h : Inv s) : s.renew.timer = false := by
  unfold Thumb.renew
  split_ifs with hurl
  · rfl
  · rw [Bool.eq_false_iff]
    exact fun htimer => hurl (h.timer htimer).2

/-- The renewed effect before its body: nothing is pending. -/
theorem inv_renew (h : Inv s) (hurl : (present s.url).isSome) : Inv s.renew where
  pending := by
    intro i hi
    rw [pending_renew h] at hi
    cases hi
  src := by
    intro i hi
    rw [src_renew] at hi
    obtain ⟨⟨image, himage, hloaded⟩, hhad⟩ := h.src i hi
    refine ⟨⟨image, ?_, hloaded⟩, ?_⟩
    · rwa [images_renew]
    · unfold Thumb.renew
      split_ifs <;> exact hhad
  hadImage := by
    intro hhad
    rw [src_renew]
    have hold : s.hadImage = true ∧ s.renew.failed = s.failed := by
      unfold Thumb.renew at hhad ⊢
      split_ifs at hhad ⊢ <;> exact ⟨hhad, rfl⟩
    rw [hold.2]
    exact ⟨(h.hadImage hold.1).1, (h.hadImage hold.1).2.1, hurl⟩
  timer := by
    intro htimer
    rw [timer_renew h] at htimer
    cases htimer

/-- Without a URL there is no frame. -/
theorem inv_clear (htimer : s.timer = false) : Inv s.clear where
  pending := fun _ hi => by cases hi
  src := fun _ hi => by cases hi
  hadImage := fun hhad => by cases hhad
  timer := by
    intro hstarted
    cases htimer.symm.trans hstarted

/-- A timer may run in a tab that is seen. -/
theorem inv_start (h : Inv s) (hvisible : s.hidden = false) (hurl : s.effectUrl.isSome) :
    Inv s.start :=
  ⟨h.pending, h.src, h.hadImage, fun _ => ⟨hvisible, hurl⟩⟩

/-- An effect asks for a frame at once, and for more only where the tab is seen. -/
theorem inv_beginEffect (h : Inv s) (hurl : s.effectUrl.isSome) (url : String) :
    Inv (s.beginEffect url) := by
  have htick := inv_tick h hurl url
  show Inv (if s.hidden = true then s.tick url else (s.tick url).start)
  split_ifs with hhidden
  · exact htick
  · exact inv_start htick (Bool.eq_false_iff.mpr hhidden) hurl

theorem follows_beginEffect (s : Thumb) (url : String) : Follows s (s.beginEffect url) := by
  show Follows s (if s.hidden = true then s.tick url else (s.tick url).start)
  split_ifs
  · exact follows_tick s url
  · exact (follows_tick s url).trans (.of_src (Nat.le_refl _) (Or.inl rfl))

theorem follows_renew (s : Thumb) : Follows s s.renew :=
  .of_src (by rw [images_renew]) (Or.inl (src_renew s))

/-- A tab that is shown again asks for a frame at once. -/
theorem inv_onVisibility (h : Inv s) (hurl : s.effectUrl.isSome) (hidden : Bool) (url : String) :
    Inv (Thumb.onVisibility { s with hidden := hidden } url) := by
  unfold Thumb.onVisibility
  cases hidden with
  | true => exact ⟨h.pending, h.src, h.hadImage, fun htimer => by cases htimer⟩
  | false =>
    have htick := inv_tick h hurl url
    exact ⟨htick.pending, htick.src, htick.hadImage, fun _ => ⟨rfl, hurl⟩⟩

theorem follows_onVisibility (s : Thumb) (hidden : Bool) (url : String) :
    Follows s (Thumb.onVisibility { s with hidden := hidden } url) := by
  unfold Thumb.onVisibility
  cases hidden with
  | true => exact .of_src (Nat.le_refl _) (Or.inl rfl)
  | false =>
    have htick := follows_tick s url
    exact ⟨htick.grows, htick.newest⟩

/-! ## Runs -/

/-- **A step** keeps the invariant and shows nothing that is overtaken. -/
theorem step_keeps (h : Inv s) {a : Action} (hstep : step s a = some s') :
    Inv s' ∧ Follows s s' := by
  cases moves_of_step hstep with
  | tick _ hurl => exact ⟨inv_tick h (by rw [hurl]; rfl) _, follows_tick s _⟩
  | idle hurl =>
    refine ⟨⟨h.pending, h.src, h.hadImage, fun htimer => ?_⟩, .of_src (Nat.le_refl _) (Or.inl rfl)⟩
    have hsome := (h.timer htimer).2
    rw [hurl] at hsome
    cases hsome
  | visibility hurl =>
    exact ⟨inv_onVisibility h (by rw [hurl]; rfl) _ _, follows_onVisibility s _ _⟩
  | render =>
    exact ⟨⟨h.pending, h.src, h.hadImage, h.timer⟩, .of_src (Nat.le_refl _) (Or.inl rfl)⟩
  | same => exact ⟨h, .refl s⟩
  | clear =>
    -- The clean-up has stopped the timer; the effect without a URL starts none.
    exact ⟨inv_clear (timer_renew h),
      (follows_renew s).trans (.of_src (Nat.le_refl _) (Or.inr rfl))⟩
  | begin hurl =>
    have hsome : (present s.url).isSome := by rw [hurl, Option.isSome_some]
    exact ⟨inv_beginEffect (inv_renew h hsome) hsome _,
      (follows_renew s).trans (follows_beginEffect _ _)⟩
  | loaded hi => exact ⟨inv_settle h hi true, follows_settle s _ true⟩
  | load hi hpending =>
    -- Only the pending image gets here, and it is the newest one.
    have hsettled := inv_settle h hi true
    obtain ⟨image, himage, _⟩ := hi
    exact ⟨inv_onload hsettled hpending (complete_settle himage),
      (follows_settle s _ true).trans (follows_onload hsettled hpending)⟩
  | failed hi => exact ⟨inv_settle h hi false, follows_settle s _ false⟩
  | error hi =>
    exact ⟨inv_onerror (inv_settle h hi false),
      (follows_settle s _ false).trans (follows_onerror _)⟩
  | imgError => exact ⟨inv_onerror h, follows_onerror s⟩

theorem src_onerror (s : Thumb) : s.onerror.src = s.src := by
  unfold Thumb.onerror
  split_ifs <;> rfl

theorem src_beginEffect (s : Thumb) (url : String) : (s.beginEffect url).src = s.src := by
  show (if s.hidden = true then s.tick url else (s.tick url).start).src = s.src
  split_ifs <;> rfl

theorem src_onVisibility (s : Thumb) (url : String) : (s.onVisibility url).src = s.src := by
  unfold Thumb.onVisibility
  split_ifs <;> rfl

/-- The source goes only with the URL. -/
theorem src_step (hurl : (present s.url).isSome) (hsrc : s.src.isSome) {a : Action}
    (hstep : step s a = some s') : s'.src.isSome := by
  cases moves_of_step hstep with
  | tick | idle | render | same | loaded | failed => exact hsrc
  | visibility =>
    rw [src_onVisibility]
    exact hsrc
  | clear hnone =>
    rw [hnone] at hurl
    cases hurl
  | begin =>
    rw [src_beginEffect, src_renew]
    exact hsrc
  | load => rfl
  | error =>
    rw [src_onerror]
    exact hsrc
  | imgError =>
    rw [src_onerror]
    exact hsrc

theorem url_onerror (s : Thumb) : s.onerror.url = s.url := by
  unfold Thumb.onerror
  split_ifs <;> rfl

theorem url_renew (s : Thumb) : s.renew.url = s.url := by
  unfold Thumb.renew
  split_ifs <;> rfl

theorem url_beginEffect (s : Thumb) (url : String) : (s.beginEffect url).url = s.url := by
  show (if s.hidden = true then s.tick url else (s.tick url).start).url = s.url
  split_ifs <;> rfl

theorem url_onVisibility (s : Thumb) (url : String) : (s.onVisibility url).url = s.url := by
  unfold Thumb.onVisibility
  split_ifs <;> rfl

/-- The channel is live in every render. -/
def Action.StaysLive : Action → Prop
  | .render url _ => (present url).isSome
  | _ => True

/-- Only a render changes the URL. -/
theorem url_step {a : Action} (ha : a.StaysLive) (hurl : (present s.url).isSome)
    (hstep : step s a = some s') : (present s'.url).isSome := by
  cases moves_of_step hstep with
  | tick | idle | same | loaded | failed | load => exact hurl
  | render => exact ha
  | visibility =>
    rw [url_onVisibility]
    exact hurl
  | clear =>
    show (present s.renew.url).isSome
    rw [url_renew]
    exact hurl
  | begin =>
    rw [url_beginEffect, url_renew]
    exact hurl
  | error | imgError =>
    rw [url_onerror]
    exact hurl

theorem hidden_renew (s : Thumb) : s.renew.hidden = s.hidden := by
  unfold Thumb.renew
  split_ifs <;> rfl

/-- A failure asks for nothing. -/
theorem onerror_quiet (s : Thumb) : s.onerror.hidden = s.hidden ∧ s.onerror.images = s.images := by
  unfold Thumb.onerror
  split_ifs <;> exact ⟨rfl, rfl⟩

theorem settle_length (s : Thumb) (i : ℕ) (ok : Bool) :
    (s.settle i ok).images.length = s.images.length := List.length_modify _ _ _

/-- The effects of a hidden tab: one frame where an effect with a URL begins. -/
theorem hidden_effects (hhidden : s.hidden = true) :
    s.effects.hidden = true ∧ s.effects.images.length = s.images.length + begins s .effects := by
  unfold Thumb.effects begins
  by_cases hran : s.ran = some (s.url, s.intervalMs)
  · rw [if_pos hran, if_neg fun h => h.2.1 hran]
    exact ⟨hhidden, rfl⟩
  · have hrenewed : s.renew.hidden = true := by rw [hidden_renew, hhidden]
    rw [if_neg hran]
    cases hurl : present s.url with
    | none =>
      rw [if_neg fun h => by cases h.2.2]
      exact ⟨hrenewed, congrArg List.length (images_renew s)⟩
    | some url =>
      have hbegin : s.renew.beginEffect url = s.renew.tick url := if_pos hrenewed
      show (s.renew.beginEffect url).hidden = true ∧ (s.renew.beginEffect url).images.length = _
      rw [hbegin, if_pos ⟨rfl, hran, rfl⟩]
      refine ⟨hrenewed, ?_⟩
      show (s.renew.images ++ [_]).length = _
      rw [images_renew, List.length_append, List.length_singleton]

/-- A hidden tab asks for a frame only at the begin of an effect. -/
theorem hidden_step (h : Inv s) (hhidden : s.hidden = true) {a : Action}
    (ha : a ≠ .visibility false) (hstep : step s a = some s') :
    s'.hidden = true ∧ s'.images.length = s.images.length + begins s a := by
  by_cases heffects : a = .effects
  · subst heffects
    obtain rfl := Option.some.inj hstep
    exact hidden_effects hhidden
  · have hnone : begins s a = 0 := if_neg fun h => heffects h.1
    rw [hnone, Nat.add_zero]
    cases moves_of_step hstep with
    | tick htimer =>
      -- The timer of a hidden tab is off.
      rw [(h.timer htimer).1] at hhidden
      cases hhidden
    | @idle hidden | @visibility hidden =>
      cases hidden with
      | false => exact absurd rfl ha
      | true => exact ⟨rfl, by simp [Thumb.onVisibility, Thumb.stop]⟩
    | render => exact ⟨hhidden, rfl⟩
    | same | clear | begin => exact absurd rfl heffects
    | loaded => exact ⟨hhidden, settle_length s _ true⟩
    | load => exact ⟨hhidden, settle_length s _ true⟩
    | failed => exact ⟨hhidden, settle_length s _ false⟩
    | @error i =>
      rw [(onerror_quiet (s.settle i false)).1, (onerror_quiet (s.settle i false)).2, settle_length]
      exact ⟨hhidden, rfl⟩
    | imgError =>
      rw [(onerror_quiet s).1, (onerror_quiet s).2]
      exact ⟨hhidden, rfl⟩

/-- The frame on the page is the source of a present URL. -/
theorem shown_eq_some (h : s.shown = some i) : (present s.url).isSome ∧ s.src = some i := by
  unfold Thumb.shown at h
  split_ifs at h with hnone
  rw [not_or] at hnone
  exact ⟨Option.isSome_iff_ne_none.mpr hnone.1, h⟩

/-- A frame that was shown outweighs every failure. -/
theorem shown_of_src (h : Inv s) (hurl : (present s.url).isSome) (hsrc : s.src = some i) :
    s.shown = some i := by
  unfold Thumb.shown
  rw [if_neg, hsrc]
  rw [not_or]
  refine ⟨Option.isSome_iff_ne_none.mp hurl, fun hfailed => ?_⟩
  rw [(h.src i hsrc).2] at hfailed
  cases hfailed.2

/-- **The invariant holds in every state of a run.** -/
theorem inv_of_run {url : Option String} {intervalMs : ℕ} {hidden : Bool} {as : List Action}
    (h : run step (mount url intervalMs hidden) as = some s) : Inv s := by
  have hany : Along (fun _ _ => True) step (mount url intervalMs hidden) as :=
    along_of_forall (fun _ _ _ => trivial) _
  exact run_invariant (fun _ _ _ hI _ hstep => (step_keeps hI hstep).1) as _ s
    (inv_mount url intervalMs hidden) hany h

/-- A later part of a run shows nothing that was overtaken before it. -/
theorem follows_of_run (h : Inv s) {as : List Action} (hrun : run step s as = some s') :
    Inv s' ∧ Follows s s' := by
  have hany : Along (fun _ _ => True) step s as := along_of_forall (fun _ _ _ => trivial) _
  refine run_invariant (I := fun t => Inv t ∧ Follows s t) ?_ as s s' ⟨h, .refl s⟩ hany hrun
  intro t a t' hI _ hstep
  exact ⟨(step_keeps hI.1 hstep).1, hI.2.trans (step_keeps hI.1 hstep).2⟩

/-- **The page never steps back.**  What it shows is complete; later it shows the same frame, a
frame that was the newest or one that was not yet asked for, so the frames appear in the order
of their requests and an overtaken one never does. -/
theorem frames_never_step_back {url : Option String} {intervalMs : ℕ} {hidden : Bool}
    {pre post : List Action} (hs : run step (mount url intervalMs hidden) pre = some s)
    (hs' : run step s post = some s') :
    (∀ j, s'.shown = some j → s'.Complete j ∧ (s.src = some j ∨ s.images.length ≤ j + 1)) ∧
      ∀ i j, s.shown = some i → s'.shown = some j → i ≤ j := by
  have hI := inv_of_run hs
  obtain ⟨hI', hfollows⟩ := follows_of_run hI hs'
  constructor
  · intro j hj
    have hsrc := (shown_eq_some hj).2
    exact ⟨(hI'.src j hsrc).1, hfollows.newest j hsrc⟩
  · intro i j hi hj
    obtain ⟨⟨image, himage, _⟩, _⟩ := hI.src i (shown_eq_some hi).2
    have hbound : i < s.images.length := (List.getElem?_eq_some_iff.mp himage).1
    rcases hfollows.newest j (shown_eq_some hj).2 with hsame | hnew
    · rw [(shown_eq_some hi).2] at hsame
      exact (Option.some.inj hsame).le
    · omega

/-- The frame asked for last has loaded, and the one before it has failed since. -/
theorem frames_never_step_back_truncated :
    ∃ s s', run step (mount (some "/t") 2000 false) [.effects, .load 0, .interval] = some s ∧
      run step s [.interval, .load 2, .error 1] = some s' ∧
      s'.Complete 2 ∧ (s.src = some 2 ∨ s.images.length ≤ 2 + 1) := by
  refine ⟨_, _, rfl, rfl, ?_⟩
  have hs : run step (mount (some "/t") 2000 false) [.effects, .load 0, .interval] = some _ := rfl
  exact (frames_never_step_back hs
    (show run step _ [.interval, .load 2, .error 1] = some _ from rfl)).1 2 rfl

/-- **A preview stays**: once it shows a frame, it shows a frame as long as the channel is live,
whatever fails. -/
theorem preview_stays {url : Option String} {intervalMs : ℕ} {hidden : Bool}
    {pre post : List Action} (hs : run step (mount url intervalMs hidden) pre = some s)
    (hshown : s.shown.isSome) (hlive : ∀ a ∈ post, a.StaysLive)
    (hs' : run step s post = some s') : s'.shown.isSome := by
  obtain ⟨i, hi⟩ := Option.isSome_iff_exists.mp hshown
  obtain ⟨hurl, hsrc⟩ := shown_eq_some hi
  obtain ⟨hI', hurl', hsrc'⟩ : Inv s' ∧ (present s'.url).isSome ∧ s'.src.isSome := by
    have hall : Along (fun _ a => a.StaysLive) step s post := along_of_forall (fun _ => hlive) s
    refine run_invariant (I := fun t => Inv t ∧ (present t.url).isSome ∧ t.src.isSome) ?_ post
      s s' ⟨inv_of_run hs, hurl, by rw [hsrc]; rfl⟩ hall hs'
    intro t a t' hI ha hstep
    exact ⟨(step_keeps hI.1 hstep).1, url_step ha hI.2.1 hstep, src_step hI.2.1 hI.2.2 hstep⟩
  obtain ⟨j, hj⟩ := Option.isSome_iff_exists.mp hsrc'
  rw [shown_of_src hI' hurl' hj]
  rfl

/-- A later frame fails, and the first one stays. -/
theorem preview_stays_truncated :
    ∃ s s', run step (mount (some "/t") 2000 false) [.effects, .load 0] = some s ∧
      s.shown.isSome ∧ run step s [.interval, .error 1, .imgError] = some s' ∧
      s'.shown.isSome := by
  refine ⟨_, _, rfl, rfl, rfl, ?_⟩
  have hs : run step (mount (some "/t") 2000 false) [.effects, .load 0] = some _ := rfl
  exact preview_stays hs rfl (by simp [Action.StaysLive])
    (show run step _ [.interval, .error 1, .imgError] = some _ from rfl)

/-- **A hidden tab is quiet**: while it stays hidden, a preview asks for one frame at the begin of
each effect with a URL and for no other, whatever the timer and the visibility do. -/
theorem hidden_tab_is_quiet {url : Option String} {intervalMs : ℕ} {hidden : Bool}
    {pre post : List Action} (hs : run step (mount url intervalMs hidden) pre = some s)
    (hhidden : s.hidden = true) (hstays : .visibility false ∉ post)
    (hs' : run step s post = some s') :
    s'.images.length = s.images.length + begun s post := by
  have hI := inv_of_run hs
  clear hs
  induction post generalizing s with
  | nil =>
    obtain rfl := Option.some.inj hs'
    rfl
  | cons a post ih =>
    obtain ⟨t, hstep, hrest⟩ := Option.bind_eq_some_iff.mp hs'
    rw [List.mem_cons, not_or] at hstays
    obtain ⟨ht, hlength⟩ := hidden_step hI hhidden (Ne.symm hstays.1) hstep
    have hlater := ih ht hstays.2 hrest (step_keeps hI hstep).1
    rw [hlater, hlength, begun, hstep, Option.elim_some, Nat.add_assoc]

/-- The URL changes in a hidden tab: one frame for the new one, and none for effects that are run
again with the same. -/
theorem hidden_tab_is_quiet_switched :
    ∃ s s', run step (mount (some "/t") 2000 false) [.effects, .visibility true] = some s ∧
      s.hidden = true ∧
      run step s [.load 0, .render (some "/u") 2000, .effects, .visibility true, .effects] =
        some s' ∧ s'.images.length = s.images.length + 1 := by
  refine ⟨_, _, rfl, rfl, rfl, ?_⟩
  have hs : run step (mount (some "/t") 2000 false) [.effects, .visibility true] = some _ := rfl
  exact hidden_tab_is_quiet hs rfl (by simp)
    (show run step _ [.load 0, .render (some "/u") 2000, .effects, .visibility true, .effects] =
      some _ from rfl)

end Steps

end LiveThumb
