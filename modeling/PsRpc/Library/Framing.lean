import Mathlib.Data.List.Basic
import Mathlib.Data.List.Infix

/-! # Incremental decoding of length-prefixed frames

A format fixes how many elements a header has, how many elements of body a header announces and
whether there is room for this body. The decoder keeps the elements of the frame it is in and hands
out each frame with its last element, so a stream of frames is decoded into these frames.

The lazy decoder hands out a frame only while it takes an element of a body. It stops at a header
that is not admitted. A header that announces an empty body jams it, and the next element overruns
the header. On streams without such headers the two decoders agree.
-/

namespace Framing

variable {α : Type*}

structure Format (α : Type*) where
  headerLen : Nat
  bodyLen : List α → Nat
  admits : List α → Bool
  headerLen_pos : 0 < headerLen

namespace Format

variable (F : Format α)

def IsFrame (p : List α) : Prop := p.length = F.headerLen + F.bodyLen (p.take F.headerLen)

instance (p : List α) : Decidable (F.IsFrame p) := inferInstanceAs (Decidable (_ = _))

def Unfinished (p : List α) : Prop :=
  F.headerLen ≤ p.length → p.length < F.headerLen + F.bodyLen (p.take F.headerLen)

def Admitted (p : List α) : Prop := F.headerLen ≤ p.length → F.admits (p.take F.headerLen) = true

instance (p : List α) : Decidable (F.Admitted p) := inferInstanceAs (Decidable (_ → _))

def push (pending : List α) (x : α) : List (List α) × List α :=
  if F.IsFrame (pending ++ [x]) then ([pending ++ [x]], []) else ([], pending ++ [x])

def feed : List α → List α → List (List α) × List α
  | pending, [] => ([], pending)
  | pending, x :: xs =>
    ((F.push pending x).1 ++ (feed (F.push pending x).2 xs).1, (feed (F.push pending x).2 xs).2)

@[simp] theorem feed_nil (pending : List α) : F.feed pending [] = ([], pending) := rfl

theorem feed_cons (pending : List α) (x : α) (xs : List α) :
    F.feed pending (x :: xs) =
      ((F.push pending x).1 ++ (F.feed (F.push pending x).2 xs).1,
        (F.feed (F.push pending x).2 xs).2) := rfl

theorem feed_append (pending a b : List α) :
    F.feed pending (a ++ b) =
      ((F.feed pending a).1 ++ (F.feed (F.feed pending a).2 b).1,
        (F.feed (F.feed pending a).2 b).2) := by
  induction a generalizing pending with
  | nil => rfl
  | cons x xs ih => rw [List.cons_append, feed_cons, feed_cons, ih, List.append_assoc]

variable {F}

theorem IsFrame.headerLen_le {p : List α} (h : F.IsFrame p) : F.headerLen ≤ p.length := by
  unfold IsFrame at h
  omega

theorem IsFrame.ne_nil {p : List α} (h : F.IsFrame p) : p ≠ [] := by
  have hLen := h.headerLen_le
  have hPos := F.headerLen_pos
  exact List.length_pos_iff.mp (by omega)

theorem Unfinished.not_isFrame {p : List α} (h : F.Unfinished p) : ¬ F.IsFrame p := by
  intro hFrame
  have hLt := h hFrame.headerLen_le
  unfold IsFrame at hFrame
  omega

theorem take_headerLen_append {p : List α} (h : F.headerLen ≤ p.length) (r : List α) :
    (p ++ r).take F.headerLen = p.take F.headerLen :=
  List.take_append_of_le_length h

theorem Unfinished.of_isPrefixOf {p q : List α} (h : F.Unfinished q) (hpq : p <+: q) :
    F.Unfinished p := by
  intro hp
  obtain ⟨r, rfl⟩ := hpq
  have hq := h (by rw [List.length_append]; omega)
  rw [take_headerLen_append hp, List.length_append] at hq
  omega

theorem IsFrame.unfinished_of_append {p r : List α} (h : F.IsFrame (p ++ r)) (hr : r ≠ []) :
    F.Unfinished p := by
  intro hp
  have hPos := List.length_pos_iff.mpr hr
  unfold IsFrame at h
  rw [take_headerLen_append hp, List.length_append] at h
  omega

theorem admitted_nil : F.Admitted [] := by
  intro hLen
  have hPos := F.headerLen_pos
  rw [List.length_nil] at hLen
  omega

theorem Admitted.of_isPrefixOf {p q : List α} (h : F.Admitted q) (hpq : p <+: q) :
    F.Admitted p := by
  intro hp
  obtain ⟨r, rfl⟩ := hpq
  have hq := h (by rw [List.length_append]; omega)
  rwa [take_headerLen_append hp] at hq

theorem Admitted.append {p : List α} (h : F.Admitted p) (hp : F.headerLen ≤ p.length)
    (r : List α) : F.Admitted (p ++ r) := by
  intro _
  rw [take_headerLen_append hp]
  exact h hp

theorem admitted_of_append_eq_flatten {q b : List α} {fs : List (List α)}
    (h : q ++ b = fs.flatten) (hFrames : ∀ f ∈ fs, F.IsFrame f ∧ F.Admitted f) : F.Admitted q := by
  cases fs with
  | nil =>
    rw [List.flatten_nil, List.append_eq_nil_iff] at h
    rw [h.1]
    exact admitted_nil
  | cons f fs =>
    obtain ⟨hFrame, hAdmitted⟩ := hFrames f List.mem_cons_self
    intro hLen
    rw [← take_headerLen_append hLen b, h, List.flatten_cons,
      take_headerLen_append hFrame.headerLen_le]
    exact hAdmitted hFrame.headerLen_le

theorem feed_of_unfinished {pending xs : List α} (h : F.Unfinished (pending ++ xs)) :
    F.feed pending xs = ([], pending ++ xs) := by
  induction xs generalizing pending with
  | nil => simp
  | cons x xs ih =>
    have hAssoc : pending ++ x :: xs = (pending ++ [x]) ++ xs := by simp
    have hHead : F.Unfinished (pending ++ [x]) := h.of_isPrefixOf ⟨xs, hAssoc.symm⟩
    have hPush : F.push pending x = ([], pending ++ [x]) := if_neg hHead.not_isFrame
    rw [hAssoc] at h ⊢
    rw [feed_cons, hPush]
    simp only [List.nil_append]
    rw [ih h]

theorem feed_of_isFrame {pending xs : List α} (h : F.IsFrame (pending ++ xs)) (hxs : xs ≠ []) :
    F.feed pending xs = ([pending ++ xs], []) := by
  obtain ⟨init, last, rfl⟩ := List.eq_nil_or_concat xs |>.resolve_left hxs
  rw [List.concat_eq_append, ← List.append_assoc] at h ⊢
  have hInit : F.feed pending init = ([], pending ++ init) :=
    feed_of_unfinished (h.unfinished_of_append (by simp))
  rw [feed_append, hInit, feed_cons]
  have hPush : F.push (pending ++ init) last = ([pending ++ init ++ [last]], []) := if_pos h
  simp [hPush]

theorem feed_head {p xs : List α} (h : F.headerLen ≤ p.length) :
    ((F.feed p xs).1 = [] ∧ p <+: (F.feed p xs).2) ∨
      ∃ f fs, (F.feed p xs).1 = f :: fs ∧ p <+: f := by
  induction xs generalizing p with
  | nil => exact .inl ⟨rfl, List.prefix_rfl⟩
  | cons x xs ih =>
    rw [feed_cons, push]
    split
    · exact .inr ⟨p ++ [x], _, rfl, List.prefix_append p [x]⟩
    · have hLen : F.headerLen ≤ (p ++ [x]).length := by rw [List.length_append]; omega
      rcases ih hLen with ⟨hNone, hRest⟩ | ⟨f, fs, hFirst, hPrefix⟩
      · exact .inl ⟨hNone, (List.prefix_append p [x]).trans hRest⟩
      · exact .inr ⟨f, fs, hFirst, (List.prefix_append p [x]).trans hPrefix⟩

theorem admitted_of_feed {p xs : List α} (hRest : F.Admitted (F.feed p xs).2)
    (h : ∀ f ∈ (F.feed p xs).1, F.Admitted f) : F.Admitted p := by
  intro hLen
  rcases feed_head hLen with ⟨_, hPrefix⟩ | ⟨f, fs, hFirst, hPrefix⟩
  · exact hRest.of_isPrefixOf hPrefix hLen
  · exact (h f (by rw [hFirst]; exact List.mem_cons_self)).of_isPrefixOf hPrefix hLen

/-- Behind a header that is not admitted no frame counts. -/
theorem takeWhile_feed_of_not_admitted {p xs : List α} (h : ¬F.Admitted p) :
    (F.feed p xs).1.takeWhile (fun f => decide (F.Admitted f)) = [] := by
  have hLen : F.headerLen ≤ p.length := by
    by_contra hShort
    exact h fun hLong => absurd hLong hShort
  rcases @feed_head _ F p xs hLen with ⟨hNone, _⟩ | ⟨f, fs, hFirst, hPrefix⟩
  · rw [hNone, List.takeWhile_nil]
  · have hNot : ¬F.Admitted f := fun hf => h (hf.of_isPrefixOf hPrefix)
    rw [hFirst, List.takeWhile_cons_of_neg (by simpa using hNot)]

theorem takeWhile_feed_cons_of_not_admitted {p : List α} {x : α} (xs : List α)
    (h : ¬F.Admitted (p ++ [x])) :
    (F.feed p (x :: xs)).1.takeWhile (fun f => decide (F.Admitted f)) = [] := by
  rw [feed_cons, push]
  split
  · exact List.takeWhile_cons_of_neg (by simpa using h)
  · exact takeWhile_feed_of_not_admitted h

theorem isFrame_of_mem_feed {pending xs : List α} : ∀ f ∈ (F.feed pending xs).1, F.IsFrame f := by
  induction xs generalizing pending with
  | nil => simp
  | cons x xs ih =>
    intro f hf
    rw [feed_cons, push] at hf
    split at hf
    · rename_i hFrame
      rcases List.mem_cons.mp hf with rfl | hf
      · exact hFrame
      · exact ih f hf
    · exact ih f hf

theorem flatten_feed (F : Format α) (pending xs : List α) :
    (F.feed pending xs).1.flatten ++ (F.feed pending xs).2 = pending ++ xs := by
  induction xs generalizing pending with
  | nil => simp
  | cons x xs ih =>
    rw [feed_cons, push]
    split <;> simp [ih]

theorem feed_frames {fs : List (List α)} (h : ∀ f ∈ fs, F.IsFrame f) :
    F.feed [] fs.flatten = (fs, []) := by
  induction fs with
  | nil => rfl
  | cons f fs ih =>
    have hf := h f List.mem_cons_self
    have hHead : F.feed [] f = ([f], []) := feed_of_isFrame hf hf.ne_nil
    rw [List.flatten_cons, feed_append, hHead, ih fun g hg => h g (List.mem_cons_of_mem f hg)]
    rfl

/-- A part of a stream of frames: it completes the first of them and leaves the others. -/
theorem feed_part {pending a b : List α} {fs : List (List α)} (hPending : F.Unfinished pending)
    (hFrames : ∀ f ∈ fs, F.IsFrame f) (h : pending ++ a ++ b = fs.flatten) :
    ∃ rest, fs = (F.feed pending a).1 ++ rest ∧ (F.feed pending a).2 ++ b = rest.flatten := by
  have hStart : F.feed [] pending = ([], pending) := feed_of_unfinished hPending
  have hAll := feed_frames hFrames
  rw [← h, List.append_assoc, feed_append, hStart, feed_append] at hAll
  have hSplit := congrArg Prod.fst hAll
  have hBytes := F.flatten_feed pending a
  refine ⟨(F.feed (F.feed pending a).2 b).1, hSplit.symm, ?_⟩
  have hFlatten := congrArg List.flatten hSplit
  simp only [List.nil_append, List.flatten_append] at hFlatten
  rw [← h, ← hBytes, List.append_assoc] at hFlatten
  exact (List.append_cancel_left hFlatten).symm

end Format

/-- A list that starts `p` followed by itself repeats `p`, so its length determines it. -/
theorem eq_of_shifted {p g g' : List α} (hp : p ≠ []) (h : g <+: p ++ g) (h' : g' <+: p ++ g')
    (hLen : g.length = g'.length) : g = g' := by
  have hPos := List.length_pos_iff.mpr hp
  obtain ⟨r, hr⟩ := h
  obtain ⟨r', hr'⟩ := h'
  have hGet : ∀ i, i < g.length → g[i]? = g'[i]? := by
    intro i
    induction i using Nat.strongRecOn with
    | ind i ih =>
      intro hi
      have hg : g[i]? = (p ++ g)[i]? := by rw [← hr, List.getElem?_append_left hi]
      have hg' : g'[i]? = (p ++ g')[i]? := by
        rw [← hr', List.getElem?_append_left (by omega)]
      by_cases hShort : i < p.length
      · rw [hg, hg', List.getElem?_append_left hShort, List.getElem?_append_left hShort]
      · rw [hg, hg', List.getElem?_append_right (by omega), List.getElem?_append_right (by omega)]
        exact ih (i - p.length) (by omega) (by omega)
  apply List.ext_getElem?
  intro i
  by_cases hi : i < g.length
  · exact hGet i hi
  · rw [List.getElem?_eq_none (by omega), List.getElem?_eq_none (by omega)]

/-! ## The lazy decoder -/

inductive Mode (α : Type*) where
  | reading (pending : List α)
  | jammed

inductive Stop where
  | overrun
  | refused
deriving DecidableEq, Repr

namespace Format

variable (F : Format α)

def lazyPush : Mode α → α → Except Stop (List (List α) × Mode α)
  | .reading p, x =>
    if p.length + 1 = F.headerLen ∧ ¬F.Admitted (p ++ [x]) then .error .refused
    else if F.IsFrame (p ++ [x]) then
      if F.headerLen < (p ++ [x]).length then .ok ([p ++ [x]], .reading []) else .ok ([], .jammed)
    else .ok ([], .reading (p ++ [x]))
  | .jammed, _ => .error .overrun

def lazyFeed : Mode α → List α → Except Stop (List (List α) × Mode α)
  | mode, [] => .ok ([], mode)
  | mode, x :: xs =>
    (F.lazyPush mode x).bind fun first =>
      (lazyFeed first.2 xs).map fun later => (first.1 ++ later.1, later.2)

variable {F}

@[simp] theorem lazyFeed_nil (mode : Mode α) : F.lazyFeed mode [] = .ok ([], mode) := rfl

theorem lazyFeed_jammed {xs : List α} (h : xs ≠ []) : F.lazyFeed .jammed xs = .error .overrun := by
  cases xs with
  | nil => exact absurd rfl h
  | cons x xs => rfl

theorem lazyFeed_append (mode : Mode α) (a b : List α) :
    F.lazyFeed mode (a ++ b) = (F.lazyFeed mode a).bind fun first =>
      (F.lazyFeed first.2 b).map fun later => (first.1 ++ later.1, later.2) := by
  induction a generalizing mode with
  | nil => cases h : F.lazyFeed mode b <;> simp [h, Except.bind, Except.map]
  | cons x xs ih =>
    rw [List.cons_append, lazyFeed, lazyFeed]
    cases F.lazyPush mode x with
    | error stop => rfl
    | ok first =>
      simp only [Except.bind]
      rw [ih]
      cases F.lazyFeed first.2 xs with
      | error stop => rfl
      | ok second =>
        simp only [Except.bind, Except.map]
        cases F.lazyFeed second.2 b <;> simp [List.append_assoc]

theorem lazyFeed_append_of {mode mode' : Mode α} {a : List α} {fs : List (List α)}
    (h : F.lazyFeed mode a = .ok (fs, mode')) (b : List α) :
    F.lazyFeed mode (a ++ b) =
      (F.lazyFeed mode' b).map fun later => (fs ++ later.1, later.2) := by
  rw [lazyFeed_append, h]
  rfl

theorem lazyFeed_append_of_error {mode : Mode α} {a : List α} {stop : Stop}
    (h : F.lazyFeed mode a = .error stop) (b : List α) :
    F.lazyFeed mode (a ++ b) = .error stop := by
  rw [lazyFeed_append, h]
  rfl

theorem lazyPush_of_admitted {p : List α} {x : α} (h : F.Admitted (p ++ [x])) :
    F.lazyPush (.reading p) x =
      if F.IsFrame (p ++ [x]) then
        if F.headerLen < (p ++ [x]).length then .ok ([p ++ [x]], .reading [])
        else .ok ([], .jammed)
      else .ok ([], .reading (p ++ [x])) :=
  if_neg fun hRefused => hRefused.2 h

theorem lazyFeed_cons_of_unfinished {p : List α} {x : α} (xs : List α)
    (h : F.Unfinished (p ++ [x])) (hAdmitted : F.Admitted (p ++ [x])) :
    F.lazyFeed (.reading p) (x :: xs) = F.lazyFeed (.reading (p ++ [x])) xs := by
  have hFirst : F.lazyFeed (.reading p) [x] = .ok ([], .reading (p ++ [x])) := by
    rw [lazyFeed, lazyPush_of_admitted hAdmitted, if_neg h.not_isFrame]
    rfl
  rw [← List.singleton_append, lazyFeed_append_of hFirst]
  cases F.lazyFeed (.reading (p ++ [x])) xs <;> rfl

theorem lazyFeed_of_unfinished {p xs : List α} (h : F.Unfinished (p ++ xs))
    (hAdmitted : F.Admitted (p ++ xs)) :
    F.lazyFeed (.reading p) xs = .ok ([], .reading (p ++ xs)) := by
  induction xs generalizing p with
  | nil => simp
  | cons x xs ih =>
    have hAssoc : p ++ x :: xs = (p ++ [x]) ++ xs := by simp
    rw [hAssoc] at h hAdmitted ⊢
    rw [lazyFeed_cons_of_unfinished xs (h.of_isPrefixOf ⟨xs, rfl⟩)
      (hAdmitted.of_isPrefixOf ⟨xs, rfl⟩), ih h hAdmitted]

theorem lazyFeed_of_isFrame {p xs : List α} (h : F.IsFrame (p ++ xs)) (hxs : xs ≠ [])
    (hBody : F.headerLen < (p ++ xs).length) (hAdmitted : F.Admitted (p ++ xs)) :
    F.lazyFeed (.reading p) xs = .ok ([p ++ xs], .reading []) := by
  obtain ⟨init, last, rfl⟩ := List.eq_nil_or_concat xs |>.resolve_left hxs
  rw [List.concat_eq_append, ← List.append_assoc] at h hBody hAdmitted ⊢
  have hInit : F.lazyFeed (.reading p) init = .ok ([], .reading (p ++ init)) :=
    lazyFeed_of_unfinished (h.unfinished_of_append (by simp))
      (hAdmitted.of_isPrefixOf (List.prefix_append _ _))
  have hPush : F.lazyPush (.reading (p ++ init)) last =
      .ok ([p ++ init ++ [last]], .reading []) := by
    rw [lazyPush_of_admitted hAdmitted, if_pos h, if_pos hBody]
  rw [lazyFeed_append_of hInit, lazyFeed, hPush]
  rfl

theorem of_lazyPush_error {p : List α} {x : α} {stop : Stop}
    (h : F.lazyPush (.reading p) x = .error stop) : stop = .refused ∧ ¬F.Admitted (p ++ [x]) := by
  rw [lazyPush] at h
  split at h
  · next hRefused => exact ⟨(Except.error.inj h).symm, hRefused.2⟩
  · split at h
    · split at h <;> cases h
    · cases h

theorem of_lazyPush_reading {p : List α} {x : α} {first : List (List α) × Mode α}
    (h : F.lazyPush (.reading p) x = .ok first) :
    (F.IsFrame (p ++ [x]) ∧ F.headerLen < (p ++ [x]).length ∧
      first = ([p ++ [x]], .reading [])) ∨
    (F.IsFrame (p ++ [x]) ∧ ¬F.headerLen < (p ++ [x]).length ∧ first = ([], .jammed)) ∨
    (¬F.IsFrame (p ++ [x]) ∧ first = ([], .reading (p ++ [x]))) := by
  rw [lazyPush] at h
  split at h
  · cases h
  split at h
  · next hFrame =>
    split at h
    · next hBody => exact .inl ⟨hFrame, hBody, (Except.ok.inj h).symm⟩
    · next hBody => exact .inr (.inl ⟨hFrame, hBody, (Except.ok.inj h).symm⟩)
  · next hFrame => exact .inr (.inr ⟨hFrame, (Except.ok.inj h).symm⟩)

theorem Admitted.lazyPush {p : List α} {x : α} {first : List (List α) × Mode α}
    (hp : F.Admitted p) (h : F.lazyPush (.reading p) x = .ok first) : F.Admitted (p ++ [x]) := by
  by_contra hNot
  have hShort : ¬F.headerLen ≤ p.length := by
    intro hLong
    exact hNot (hp.append hLong [x])
  have hLast : p.length + 1 = F.headerLen := by
    by_contra hMore
    refine hNot fun hLen => ?_
    rw [List.length_append, List.length_singleton] at hLen
    omega
  rw [Format.lazyPush, if_pos ⟨hLast, hNot⟩] at h
  cases h

theorem of_lazyFeed_cons {mode mode' : Mode α} {x : α} {xs : List α} {fs : List (List α)}
    (h : F.lazyFeed mode (x :: xs) = .ok (fs, mode')) :
    ∃ first later, F.lazyPush mode x = .ok first ∧ F.lazyFeed first.2 xs = .ok (later, mode') ∧
      fs = first.1 ++ later := by
  rw [lazyFeed] at h
  cases hPush : F.lazyPush mode x with
  | error stop =>
    rw [hPush] at h
    cases h
  | ok first =>
    rw [hPush] at h
    change (F.lazyFeed first.2 xs).map _ = _ at h
    cases hLater : F.lazyFeed first.2 xs with
    | error stop =>
      rw [hLater] at h
      cases h
    | ok later =>
      rw [hLater] at h
      cases h
      exact ⟨first, later.1, rfl, hLater, rfl⟩

theorem eq_nil_of_lazyFeed_jammed {xs : List α} {outcome : List (List α) × Mode α}
    (h : F.lazyFeed .jammed xs = .ok outcome) : xs = [] := by
  by_contra hMore
  rw [lazyFeed_jammed hMore] at h
  cases h

/-- Every header of the stream is admitted, and every frame has a body: the lazy decoder does what
the decoder does. -/
theorem lazyFeed_eq_feed {p xs : List α} (hRest : F.Admitted (F.feed p xs).2)
    (h : ∀ f ∈ (F.feed p xs).1, F.Admitted f ∧ F.headerLen < f.length) :
    F.lazyFeed (.reading p) xs = .ok ((F.feed p xs).1, .reading (F.feed p xs).2) := by
  induction xs generalizing p with
  | nil => rfl
  | cons x xs ih =>
    rw [feed_cons] at h hRest ⊢
    have hLater := ih hRest fun f hf => h f (List.mem_append_right _ hf)
    have hPush : F.lazyPush (.reading p) x =
        .ok ((F.push p x).1, .reading (F.push p x).2) := by
      by_cases hFrame : F.IsFrame (p ++ [x])
      · have hEq : F.push p x = ([p ++ [x]], []) := if_pos hFrame
        obtain ⟨hAdmitted, hLt⟩ :=
          h (p ++ [x]) (List.mem_append_left _ (by rw [hEq]; exact List.mem_cons_self))
        rw [hEq, lazyPush_of_admitted hAdmitted, if_pos hFrame, if_pos hLt]
      · have hEq : F.push p x = ([], p ++ [x]) := if_neg hFrame
        have hAdmitted : F.Admitted (p ++ [x]) := by
          rw [hEq] at h hRest
          exact admitted_of_feed hRest fun f hf => (h f hf).1
        rw [hEq, lazyPush_of_admitted hAdmitted, if_neg hFrame]
    rw [lazyFeed, hPush]
    change (F.lazyFeed (.reading (F.push p x).2) xs).map _ = _
    rw [hLater]
    rfl

theorem isFrame_of_mem_lazyFeed {mode mode' : Mode α} {xs : List α} {fs : List (List α)}
    (h : F.lazyFeed mode xs = .ok (fs, mode')) : ∀ f ∈ fs, F.IsFrame f := by
  induction xs generalizing mode fs with
  | nil =>
    obtain ⟨rfl, _⟩ := Prod.mk.inj (Except.ok.inj h)
    intro f hf
    cases hf
  | cons x xs ih =>
    obtain ⟨first, later, hPush, hLater, rfl⟩ := of_lazyFeed_cons h
    intro f hf
    rcases List.mem_append.mp hf with hFirst | hSecond
    · cases mode with
      | jammed => cases hPush
      | reading p =>
        rcases of_lazyPush_reading hPush with ⟨hFrame, _, rfl⟩ | ⟨_, _, rfl⟩ | ⟨_, rfl⟩
        · rw [List.mem_singleton.mp hFirst]
          exact hFrame
        · cases hFirst
        · cases hFirst
    · exact ih hLater f hSecond

/-- What the lazy decoder has handed out lies at the start of the stream. -/
theorem lazyFeed_conserves {p xs : List α} {fs : List (List α)} {mode : Mode α}
    (h : F.lazyFeed (.reading p) xs = .ok (fs, mode)) : fs.flatten <+: p ++ xs := by
  induction xs generalizing p fs with
  | nil =>
    obtain ⟨rfl, _⟩ := Prod.mk.inj (Except.ok.inj h)
    exact List.nil_prefix
  | cons x xs ih =>
    obtain ⟨first, later, hPush, hLater, rfl⟩ := of_lazyFeed_cons h
    rw [show p ++ x :: xs = p ++ [x] ++ xs by simp]
    rcases of_lazyPush_reading hPush with ⟨_, _, rfl⟩ | ⟨_, _, rfl⟩ | ⟨_, rfl⟩
    · have hTail := ih hLater
      simpa using hTail
    · obtain rfl := eq_nil_of_lazyFeed_jammed hLater
      obtain ⟨rfl, _⟩ := Prod.mk.inj (Except.ok.inj hLater)
      exact List.nil_prefix
    · simpa using ih hLater

/-- The lazy decoder overruns a header exactly if a frame without a body that it comes to ends
before the last element. -/
theorem lazyFeed_ne_overrun_iff {p xs : List α} (hp : F.Admitted p) :
    F.lazyFeed (.reading p) xs ≠ .error .overrun ↔
      ∀ f ∈ (F.feed p xs.dropLast).1.takeWhile (fun f => decide (F.Admitted f)),
        F.headerLen < f.length := by
  induction xs generalizing p with
  | nil => simp
  | cons x xs ih =>
    cases hPush : F.lazyPush (.reading p) x with
    | error stop =>
      obtain ⟨rfl, hNot⟩ := of_lazyPush_error hPush
      have hFeed : F.lazyFeed (.reading p) (x :: xs) = .error .refused := by
        rw [lazyFeed, hPush]
        rfl
      cases xs with
      | nil => simp [hFeed]
      | cons y ys =>
        rw [hFeed, List.dropLast_cons_cons, takeWhile_feed_cons_of_not_admitted _ hNot]
        simp
    | ok first =>
      have hAdmitted := hp.lazyPush hPush
      have hFirst : F.lazyFeed (.reading p) [x] = .ok first := by
        rw [lazyFeed, hPush]
        change Except.ok (first.1 ++ [], first.2) = _
        rw [List.append_nil]
      have hRest (ys : List α) : F.lazyFeed (.reading p) (x :: ys) ≠ .error .overrun ↔
          F.lazyFeed first.2 ys ≠ .error .overrun := by
        rw [← List.singleton_append, lazyFeed_append_of hFirst]
        cases F.lazyFeed first.2 ys <;> simp [Except.map]
      rw [hRest]
      cases xs with
      | nil => simp
      | cons y ys =>
        rw [List.dropLast_cons_cons, feed_cons, push]
        rcases of_lazyPush_reading hPush with ⟨hFrame, hBody, rfl⟩ | ⟨hFrame, hBody, rfl⟩ |
          ⟨hFrame, rfl⟩
        · rw [ih admitted_nil, if_pos hFrame, List.singleton_append,
            List.takeWhile_cons_of_pos (by simpa using hAdmitted), List.forall_mem_cons,
            and_iff_right hBody]
        · rw [lazyFeed_jammed (List.cons_ne_nil y ys), if_pos hFrame, List.singleton_append,
            List.takeWhile_cons_of_pos (by simpa using hAdmitted), List.forall_mem_cons]
          exact iff_of_false (fun h => h rfl) fun h => hBody h.1
        · rw [ih hAdmitted, if_neg hFrame, List.nil_append]

variable (F) in
/-- The frames that the lazy decoder hands out, also when it stops later on. -/
def handedOut : Mode α → List α → List (List α)
  | _, [] => []
  | mode, x :: xs =>
    match F.lazyPush mode x with
    | .ok first => first.1 ++ handedOut first.2 xs
    | .error _ => []

theorem handedOut_append {mode mode' : Mode α} {a : List α} {fs : List (List α)}
    (h : F.lazyFeed mode a = .ok (fs, mode')) (b : List α) :
    F.handedOut mode (a ++ b) = fs ++ F.handedOut mode' b := by
  induction a generalizing mode fs with
  | nil =>
    obtain ⟨rfl, rfl⟩ := Prod.mk.inj (Except.ok.inj h)
    rfl
  | cons x xs ih =>
    obtain ⟨first, later, hPush, hLater, rfl⟩ := of_lazyFeed_cons h
    rw [List.cons_append, handedOut, hPush]
    change first.1 ++ F.handedOut first.2 (xs ++ b) = _
    rw [ih hLater, List.append_assoc]

theorem handedOut_of_lazyFeed {mode mode' : Mode α} {xs : List α} {fs : List (List α)}
    (h : F.lazyFeed mode xs = .ok (fs, mode')) : F.handedOut mode xs = fs := by
  have hAppend := handedOut_append h []
  rwa [List.append_nil, handedOut, List.append_nil] at hAppend

theorem handedOut_append_of_error {mode : Mode α} {a : List α} {stop : Stop}
    (h : F.lazyFeed mode a = .error stop) (b : List α) :
    F.handedOut mode (a ++ b) = F.handedOut mode a := by
  induction a generalizing mode with
  | nil => cases h
  | cons x xs ih =>
    rw [lazyFeed] at h
    rw [List.cons_append, handedOut, handedOut]
    cases hPush : F.lazyPush mode x with
    | error stop => rfl
    | ok first =>
      rw [hPush] at h
      change (F.lazyFeed first.2 xs).map _ = _ at h
      cases hRest : F.lazyFeed first.2 xs with
      | ok later =>
        rw [hRest] at h
        cases h
      | error stop' =>
        rw [hRest] at h
        cases h
        simp only [ih hRest]

theorem handedOut_isPrefix_append (mode : Mode α) (a b : List α) :
    F.handedOut mode a <+: F.handedOut mode (a ++ b) := by
  cases h : F.lazyFeed mode a with
  | error stop => rw [handedOut_append_of_error h]
  | ok first =>
    rw [handedOut_append h, handedOut_of_lazyFeed h]
    exact List.prefix_append _ _

theorem handedOut_jammed (xs : List α) : F.handedOut .jammed xs = [] := by
  cases xs with
  | nil => rfl
  | cons x xs => rfl

/-- The lazy decoder hands out the frames up to the first one that is not admitted or has no
body. -/
theorem handedOut_eq_takeWhile {p : List α} (hp : F.Admitted p) (xs : List α) :
    F.handedOut (.reading p) xs =
      ((F.feed p xs).1.takeWhile fun f => decide (F.Admitted f)).takeWhile
        fun f => decide (F.headerLen < f.length) := by
  induction xs generalizing p with
  | nil => rfl
  | cons x xs ih =>
    rw [handedOut]
    cases hPush : F.lazyPush (.reading p) x with
    | error stop =>
      rw [takeWhile_feed_cons_of_not_admitted xs (of_lazyPush_error hPush).2]
      rfl
    | ok first =>
      have hAdmitted := hp.lazyPush hPush
      rw [feed_cons, push]
      rcases of_lazyPush_reading hPush with ⟨hFrame, hBody, rfl⟩ | ⟨hFrame, hBody, rfl⟩ |
        ⟨hFrame, rfl⟩
      · rw [if_pos hFrame, List.singleton_append,
          List.takeWhile_cons_of_pos (by simpa using hAdmitted),
          List.takeWhile_cons_of_pos (by simpa using hBody), ← ih admitted_nil]
        rfl
      · rw [if_pos hFrame, List.singleton_append,
          List.takeWhile_cons_of_pos (by simpa using hAdmitted),
          List.takeWhile_cons_of_neg (by simpa using hBody)]
        exact handedOut_jammed xs
      · rw [if_neg hFrame, List.nil_append, ← ih hAdmitted]
        rfl

end Format

end Framing
