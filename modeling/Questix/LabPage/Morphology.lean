/-
Questix.LabPage.Morphology — the selected pixels are cleaned up
(`morphologyPass`, `erode`, `dilate` and `morphology` of `vision/basics-math.js`).

A pass is an erosion or a dilation of the selected pixels within the image
(`mem_erode`, `mem_dilate`), so opening and closing are the filters of
`Lib.Morphology`. Two masks with pixels 0 and 1 are the same when they select
the same (`ext_of_selects`): the filters are idempotent as code, not only by what
they select.
-/
import Questix.LabPage.Regions
import Questix.Lib.Morphology

namespace Questix.LabPage.Vision

open Questix.Lib.Morphology

/-! ## The filters -/

/-- `-radius … radius` -/
def offsets (radius : ℕ) : List ℤ := (List.range (2 * radius + 1)).map fun i : ℕ => (i : ℤ) - radius

/-- A pixel, or the background that is outside. -/
def Mask.neighbour (mask : Mask) (nx ny : ℤ) : ℕ :=
  if 0 ≤ nx ∧ nx < mask.width ∧ 0 ≤ ny ∧ ny < mask.height then
    mask.pixels.getD (ny * mask.width + nx).toNat 0
  else 0

/-- One pixel of a pass: the scan ends at the first neighbour that decides. -/
def Mask.passValue (mask : Mask) (radius : ℕ) (grow : Bool) (x y : ℕ) : ℕ :=
  if (offsets radius).any fun dy => (offsets radius).any fun dx =>
      (mask.neighbour (x + dx) (y + dy) != 0) == grow then
    if grow then 1 else 0
  else if grow then 0 else 1

/-- Every pixel, row by row. -/
def rowByRow (width height : ℕ) : List Pixel :=
  (List.range height).flatMap fun y => (List.range width).map fun x => (x, y)

/-- `out[y * width + x] = value` -/
def writeAll (width height : ℕ) (value : ℕ → ℕ → ℕ) (out : List ℕ) : List ℕ :=
  (rowByRow width height).foldl (fun out p => out.set (p.2 * width + p.1) (value p.1 p.2)) out

theorem length_writeAll (width height : ℕ) (value : ℕ → ℕ → ℕ) (out : List ℕ) :
    (writeAll width height value out).length = out.length := by
  unfold writeAll
  induction rowByRow width height generalizing out with
  | nil => rfl
  | cons p pixels ih => rw [List.foldl_cons, ih, List.length_set]

def morphologyPass (mask : Mask) (radius : ℕ) (grow : Bool) : Mask where
  width := mask.width
  height := mask.height
  pixels := writeAll mask.width mask.height (mask.passValue radius grow)
    (.replicate mask.pixels.length 0)
  size := by rw [length_writeAll, List.length_replicate, mask.size]

def erode (mask : Mask) (radius : ℕ) : Mask := morphologyPass mask radius false
def dilate (mask : Mask) (radius : ℕ) : Mask := morphologyPass mask radius true

/-- `'none'`, `'open'`, `'close'` and `'both'` -/
inductive Operation where
  | none
  | opening
  | closing
  | both
  deriving DecidableEq, Repr

def morphology (mask : Mask) (operation : Operation) (radius : ℕ) : Mask :=
  match operation with
  | .opening => dilate (erode mask radius) radius
  | .closing => erode (dilate mask radius) radius
  | .both =>
    let opened := dilate (erode mask radius) radius
    erode (dilate opened radius) radius
  | .none => mask

/-! ## What a pass writes -/

theorem mem_offsets {radius : ℕ} {d : ℤ} : d ∈ offsets radius ↔ -(radius : ℤ) ≤ d ∧ d ≤ radius := by
  unfold offsets
  rw [List.mem_map]
  constructor
  · rintro ⟨i, hi, rfl⟩
    have hlt := List.mem_range.1 hi
    omega
  · rintro ⟨hlo, hhi⟩
    exact ⟨(d + radius).toNat, List.mem_range.2 (by omega), by omega⟩

theorem mem_rowByRow {width height : ℕ} {p : Pixel} :
    p ∈ rowByRow width height ↔ p.1 < width ∧ p.2 < height := by
  unfold rowByRow
  rw [List.mem_flatMap]
  constructor
  · rintro ⟨y, hy, hp⟩
    obtain ⟨x, hx, rfl⟩ := List.mem_map.1 hp
    exact ⟨List.mem_range.1 hx, List.mem_range.1 hy⟩
  · rintro ⟨hx, hy⟩
    exact ⟨p.2, List.mem_range.2 hy, List.mem_map.2 ⟨p.1, List.mem_range.2 hx, rfl⟩⟩

theorem getElem?_foldl_set {β : Type} (l : List β) (index value : β → ℕ) (out : List ℕ) {j v : ℕ}
    (hv : ∀ b ∈ l, index b = j → value b = v) (hj : j < out.length) (h : ∃ b ∈ l, index b = j) :
    (l.foldl (fun out b => out.set (index b) (value b)) out)[j]? = some v := by
  have hcell (l : List β) (out : List ℕ) (hv : ∀ b ∈ l, index b = j → value b = v)
      (hout : out[j]? = some v) :
      (l.foldl (fun out b => out.set (index b) (value b)) out)[j]? = some v := by
    induction l generalizing out with
    | nil => exact hout
    | cons b l ih =>
      refine ih _ (fun b' hb' => hv b' (List.mem_cons_of_mem b hb')) ?_
      rw [List.getElem?_set]
      split
      · rename_i hb
        have hj := (List.getElem?_eq_some_iff.1 hout).1
        rw [if_pos (hb ▸ hj), hv b List.mem_cons_self hb]
      · exact hout
  induction l generalizing out with
  | nil => obtain ⟨b, hb, -⟩ := h; cases hb
  | cons b l ih =>
    have htail : ∀ b' ∈ l, index b' = j → value b' = v :=
      fun b' hb' => hv b' (List.mem_cons_of_mem b hb')
    by_cases hb : index b = j
    · refine hcell l _ htail ?_
      rw [List.getElem?_set, if_pos hb, if_pos (hb ▸ hj), hv b List.mem_cons_self hb]
    · obtain ⟨b', hb', hindex⟩ := h
      rcases List.mem_cons.1 hb' with rfl | hb'
      · exact absurd hindex hb
      · exact ih _ htail (by rwa [List.length_set]) ⟨b', hb', hindex⟩

variable {mask mask' : Mask} {radius : ℕ}

theorem getElem?_morphologyPass (mask : Mask) (radius : ℕ) (grow : Bool) {p : Pixel}
    (hx : p.1 < mask.width) (hy : p.2 < mask.height) :
    (morphologyPass mask radius grow).pixels[p.2 * mask.width + p.1]?
      = some (mask.passValue radius grow p.1 p.2) := by
  refine getElem?_foldl_set _ _ _ _ (fun q hq hnumber => ?_) ?_ ⟨p, mem_rowByRow.2 ⟨hx, hy⟩, rfl⟩
  · have hq' := mem_rowByRow.1 hq
    have hpixel := congrArg mask.pixel hnumber
    rw [pixel_number hq'.1, pixel_number hx] at hpixel
    rw [show q = p from hpixel]
  · rw [List.length_replicate, mask.size]
    exact number_lt hx hy

theorem selects_morphologyPass (mask : Mask) (radius : ℕ) (grow : Bool) (p : Pixel) :
    (morphologyPass mask radius grow).Selects p
      ↔ p.1 < mask.width ∧ p.2 < mask.height ∧ mask.passValue radius grow p.1 p.2 ≠ 0 := by
  refine and_congr_right fun hx => and_congr_right fun hy => ?_
  have hcell : (morphologyPass mask radius grow).pixels[
      p.2 * (morphologyPass mask radius grow).width + p.1]?
        = some (mask.passValue radius grow p.1 p.2) :=
    getElem?_morphologyPass mask radius grow hx hy
  unfold Mask.selected
  rw [List.getD_eq_getElem?_getD, hcell, Option.getD_some, bne_iff_ne]

/-! ## The selected pixels as a set -/

/-- The points of the image, among all points of the plane. -/
def Mask.image (mask : Mask) : Set (ℤ × ℤ) :=
  {p | 0 ≤ p.1 ∧ p.1 < mask.width ∧ 0 ≤ p.2 ∧ p.2 < mask.height}

/-- The selected ones. -/
def Mask.points (mask : Mask) : Set (ℤ × ℤ) := {p | mask.neighbour p.1 p.2 ≠ 0}

/-- Within the square of a pass. -/
def Near (radius : ℕ) (p q : ℤ × ℤ) : Prop :=
  -(radius : ℤ) ≤ q.1 - p.1 ∧ q.1 - p.1 ≤ radius ∧ -(radius : ℤ) ≤ q.2 - p.2 ∧ q.2 - p.2 ≤ radius

theorem Near.symm (p q : ℤ × ℤ) (h : Near radius p q) : Near radius q p := by
  unfold Near at *
  omega

theorem points_subset : mask.points ⊆ mask.image := by
  intro p hp
  by_contra hout
  exact hp (if_neg hout)

theorem mem_points {p : Pixel} : ((p.1 : ℤ), (p.2 : ℤ)) ∈ mask.points ↔ mask.Selects p := by
  have hnumber : ((p.2 : ℤ) * mask.width + p.1).toNat = p.2 * mask.width + p.1 := by
    exact_mod_cast Int.toNat_natCast (p.2 * mask.width + p.1)
  constructor
  · intro hp
    have himage := points_subset hp
    have hvalue : mask.neighbour p.1 p.2 = mask.pixels.getD (p.2 * mask.width + p.1) 0 := by
      rw [← hnumber]
      exact if_pos himage
    refine ⟨Int.ofNat_lt.1 himage.2.1, Int.ofNat_lt.1 himage.2.2.2, ?_⟩
    have hne : mask.neighbour p.1 p.2 ≠ 0 := hp
    rw [hvalue] at hne
    exact bne_iff_ne.2 hne
  · rintro ⟨hx, hy, hselected⟩
    have hvalue : mask.neighbour p.1 p.2 = mask.pixels.getD (p.2 * mask.width + p.1) 0 := by
      rw [← hnumber]
      exact if_pos ⟨by omega, by omega, by omega, by omega⟩
    show mask.neighbour p.1 p.2 ≠ 0
    rw [hvalue]
    exact bne_iff_ne.1 hselected

theorem pixel_of_image {p : ℤ × ℤ} (h : p ∈ mask.image) :
    ∃ q : Pixel, p = ((q.1 : ℤ), (q.2 : ℤ)) ∧ q.1 < mask.width ∧ q.2 < mask.height := by
  obtain ⟨hx, hx', hy, hy'⟩ := h
  exact ⟨(p.1.toNat, p.2.toNat), Prod.ext (by simp [hx]) (by simp [hy]), by omega, by omega⟩

theorem scan_iff (mask : Mask) (radius : ℕ) (grow : Bool) (p : Pixel) :
    ((offsets radius).any fun dy => (offsets radius).any fun dx =>
        (mask.neighbour (p.1 + dx) (p.2 + dy) != 0) == grow) = true
      ↔ ∃ q, Near radius ((p.1 : ℤ), (p.2 : ℤ)) q ∧ (q ∈ mask.points ↔ grow = true) := by
  simp only [List.any_eq_true, mem_offsets]
  constructor
  · rintro ⟨dy, hdy, dx, hdx, hvalue⟩
    refine ⟨(p.1 + dx, p.2 + dy), ⟨?_, ?_, ?_, ?_⟩, ?_⟩
    · show _ ≤ (p.1 : ℤ) + dx - p.1
      omega
    · show (p.1 : ℤ) + dx - p.1 ≤ _
      omega
    · show _ ≤ (p.2 : ℤ) + dy - p.2
      omega
    · show (p.2 : ℤ) + dy - p.2 ≤ _
      omega
    · rw [← beq_iff_eq.1 hvalue]
      exact bne_iff_ne.symm
  · rintro ⟨q, ⟨hx, hx', hy, hy'⟩, hq⟩
    refine ⟨q.2 - p.2, ⟨hy, hy'⟩, q.1 - p.1, ⟨hx, hx'⟩, ?_⟩
    rw [show (p.1 : ℤ) + (q.1 - p.1) = q.1 by omega, show (p.2 : ℤ) + (q.2 - p.2) = q.2 by omega,
      beq_iff_eq, Bool.eq_iff_iff, bne_iff_ne]
    exact hq

theorem points_morphologyPass (grow : Bool) {s : Set (ℤ × ℤ)} (hs : s ⊆ mask.image)
    (h : ∀ p : Pixel, p.1 < mask.width → p.2 < mask.height →
      (mask.passValue radius grow p.1 p.2 ≠ 0 ↔ ((p.1 : ℤ), (p.2 : ℤ)) ∈ s)) :
    (morphologyPass mask radius grow).points = s := by
  have himage : (morphologyPass mask radius grow).points ⊆ mask.image := points_subset
  ext p
  constructor
  · intro hp
    obtain ⟨q, rfl, hx, hy⟩ := pixel_of_image (himage hp)
    exact (h q hx hy).1 ((selects_morphologyPass _ _ grow q).1 (mem_points.1 hp)).2.2
  · intro hp
    obtain ⟨q, rfl, hx, hy⟩ := pixel_of_image (hs hp)
    exact mem_points.2 ((selects_morphologyPass _ _ grow q).2 ⟨hx, hy, (h q hx hy).2 hp⟩)

theorem points_erode :
    (erode mask radius).points = erosion (Near radius) mask.image mask.points := by
  refine points_morphologyPass false (fun p hp => hp.1) fun p hx hy => ?_
  have himage : ((p.1 : ℤ), (p.2 : ℤ)) ∈ mask.image := ⟨by omega, by omega, by omega, by omega⟩
  have hscan := scan_iff mask radius false p
  unfold Mask.passValue
  by_cases hfound : ∃ q, Near radius ((p.1 : ℤ), (p.2 : ℤ)) q ∧ (q ∈ mask.points ↔ false = true)
  · rw [if_pos (hscan.2 hfound)]
    obtain ⟨q, hq, hne⟩ := hfound
    exact iff_of_false (fun h => h rfl) fun h => Bool.false_ne_true (hne.1 (h.2 q hq))
  · rw [if_neg (mt hscan.1 hfound)]
    refine iff_of_true Nat.one_ne_zero ⟨himage, fun q hq => ?_⟩
    by_contra hne
    exact hfound ⟨q, hq, iff_of_false hne Bool.false_ne_true⟩

theorem points_dilate :
    (dilate mask radius).points = dilation (Near radius) mask.image mask.points := by
  refine points_morphologyPass true (fun p hp => hp.1) fun p hx hy => ?_
  have himage : ((p.1 : ℤ), (p.2 : ℤ)) ∈ mask.image := ⟨by omega, by omega, by omega, by omega⟩
  have hscan := scan_iff mask radius true p
  unfold Mask.passValue
  by_cases hfound : ∃ q, Near radius ((p.1 : ℤ), (p.2 : ℤ)) q ∧ (q ∈ mask.points ↔ true = true)
  · rw [if_pos (hscan.2 hfound)]
    obtain ⟨q, hq, hsel⟩ := hfound
    exact iff_of_true Nat.one_ne_zero ⟨himage, q, hq, hsel.2 rfl⟩
  · rw [if_neg (mt hscan.1 hfound)]
    refine iff_of_false (fun h => h rfl) ?_
    rintro ⟨-, q, hq, hsel⟩
    exact hfound ⟨q, hq, iff_of_true hsel rfl⟩

theorem points_opening :
    (morphology mask .opening radius).points
      = opening (Near radius) mask.image mask.points := by
  show (dilate (erode mask radius) radius).points = _
  rw [points_dilate, points_erode]
  rfl

theorem points_closing (mask : Mask) (radius : ℕ) :
    (morphology mask .closing radius).points
      = closing (Near radius) mask.image mask.points := by
  show (erode (dilate mask radius) radius).points = _
  rw [points_erode, points_dilate]
  rfl

/-! ## As pixels -/

theorem passValue_le (mask : Mask) (radius : ℕ) (grow : Bool) (x y : ℕ) :
    mask.passValue radius grow x y ≤ 1 := by
  unfold Mask.passValue
  split <;> split <;> omega

theorem mask_eq (hwidth : mask'.width = mask.width) (hheight : mask'.height = mask.height)
    (hpixels : mask'.pixels = mask.pixels) : mask' = mask := by
  cases mask
  cases mask'
  subst hwidth hheight hpixels
  rfl

/-- Two passes over images of one size that select the same are the same. -/
theorem morphologyPass_ext {grow grow' : Bool} (hwidth : mask'.width = mask.width)
    (hheight : mask'.height = mask.height)
    (h : (morphologyPass mask' radius grow').points = (morphologyPass mask radius grow).points) :
    morphologyPass mask' radius grow' = morphologyPass mask radius grow := by
  have hvalue : ∀ x < mask.width, ∀ y < mask.height,
      mask'.passValue radius grow' x y = mask.passValue radius grow x y := by
    intro x hx y hy
    have hpixel := selects_morphologyPass mask radius grow (x, y)
    have hpixel' := selects_morphologyPass mask' radius grow' (x, y)
    rw [← mem_points, h, mem_points, hpixel, hwidth, hheight] at hpixel'
    have hiff := hpixel'.symm
    simp only [hx, hy, true_and] at hiff
    have hle := passValue_le mask radius grow x y
    have hle' := passValue_le mask' radius grow' x y
    omega
  have hpixels : (morphologyPass mask' radius grow').pixels
      = (morphologyPass mask radius grow).pixels := by
    refine List.ext_getElem? fun i => ?_
    by_cases hi : i < mask.width * mask.height
    · obtain ⟨hx, hy⟩ := pixel_lt hi
      have hcell := getElem?_morphologyPass mask radius grow hx hy
      have hcell' := getElem?_morphologyPass mask' radius grow'
        (hwidth ▸ hx) (hheight ▸ hy)
      rw [hvalue _ hx _ hy, hwidth] at hcell'
      rw [number_pixel] at hcell hcell'
      rw [hcell, hcell']
    · have hsize := (morphologyPass mask radius grow).size
      have hsize' := (morphologyPass mask' radius grow').size
      have hsame : (morphologyPass mask' radius grow').pixels.length
          = mask.width * mask.height := by
        rw [hsize']
        show mask'.width * mask'.height = _
        rw [hwidth, hheight]
      rw [List.getElem?_eq_none (by rw [hsame]; omega),
        List.getElem?_eq_none (by rw [hsize]; exact Nat.not_lt.1 hi)]
  exact mask_eq hwidth hheight hpixels

theorem opening_idem :
    morphology (morphology mask .opening radius) .opening radius
      = morphology mask .opening radius := by
  refine morphologyPass_ext rfl rfl ?_
  show (morphology (morphology mask .opening radius) .opening radius).points
    = (morphology mask .opening radius).points
  rw [points_opening, points_opening]
  exact opening_opening Near.symm points_subset

theorem closing_idem :
    morphology (morphology mask .closing radius) .closing radius
      = morphology mask .closing radius := by
  refine morphologyPass_ext rfl rfl ?_
  show (morphology (morphology mask .closing radius) .closing radius).points
    = (morphology mask .closing radius).points
  rw [points_closing, points_closing]
  exact closing_closing Near.symm

theorem size_dilate (mask : Mask) (radius : ℕ) :
    (dilate mask radius).width = mask.width ∧ (dilate mask radius).height = mask.height :=
  ⟨rfl, rfl⟩

theorem size_morphology (mask : Mask) (operation : Operation) (radius : ℕ) :
    (morphology mask operation radius).width = mask.width ∧
      (morphology mask operation radius).height = mask.height := by
  cases operation <;> exact ⟨rfl, rfl⟩

theorem image_morphology (mask : Mask) (operation : Operation) (radius : ℕ) :
    (morphology mask operation radius).image = mask.image := by
  unfold Mask.image
  rw [(size_morphology mask operation radius).1, (size_morphology mask operation radius).2]

theorem morphology_both (mask : Mask) (radius : ℕ) :
    morphology mask .both radius
      = morphologyPass (dilate (morphology mask .opening radius) radius) radius false := rfl

theorem points_both (mask : Mask) (radius : ℕ) :
    (morphology mask .both radius).points
      = closing (Near radius) mask.image (opening (Near radius) mask.image mask.points) := by
  have hclosed := points_closing (morphology mask .opening radius) radius
  rw [points_opening, image_morphology] at hclosed
  exact hclosed

/-- A selected pixel is `d` away from the border. -/
def Mask.Away (mask : Mask) (d : ℕ) (p : Pixel) : Prop :=
  d ≤ p.1 ∧ p.1 + d < mask.width ∧ d ≤ p.2 ∧ p.2 + d < mask.height

theorem near_image {p : Pixel} (h : mask.Away radius p) {q : ℤ × ℤ}
    (hq : Near radius ((p.1 : ℤ), (p.2 : ℤ)) q) : q ∈ mask.image := by
  obtain ⟨hx, hx', hy, hy'⟩ := h
  obtain ⟨hlo, hhi, hlo', hhi'⟩ := hq
  dsimp only at hlo hhi hlo' hhi'
  exact ⟨by omega, by omega, by omega, by omega⟩

theorem points_near_image (h : ∀ p, mask.Selects p → mask.Away radius p) :
    ∀ p ∈ mask.points, ∀ q, Near radius p q → q ∈ mask.image := by
  intro p hp q hq
  obtain ⟨pixel, rfl, -, -⟩ := pixel_of_image (points_subset hp)
  exact near_image (h pixel (mem_points.1 hp)) hq

theorem both_idem (h : ∀ p, mask.Selects p → mask.Away radius p) :
    morphology (morphology mask .both radius) .both radius = morphology mask .both radius := by
  have hpoints : (morphology (morphology mask .both radius) .both radius).points
      = (morphology mask .both radius).points := by
    rw [points_both (morphology mask .both radius), image_morphology, points_both mask]
    exact closing_opening_idem Near.symm points_subset (points_near_image h)
  have hfirst := morphology_both mask radius
  have hsecond := morphology_both (morphology mask .both radius) radius
  refine hsecond.trans ((morphologyPass_ext ?_ ?_ ?_).trans hfirst.symm)
  · rw [(size_dilate _ _).1, (size_dilate _ _).1, (size_morphology _ _ _).1,
      (size_morphology _ _ _).1, (size_morphology _ _ _).1]
  · rw [(size_dilate _ _).2, (size_dilate _ _).2, (size_morphology _ _ _).2,
      (size_morphology _ _ _).2, (size_morphology _ _ _).2]
  · rw [← hfirst, ← hsecond]
    exact hpoints

/-- A square of selected pixels, as wide as the square of a pass; all of it is in the image. -/
def Mask.Square (mask : Mask) (radius x y : ℕ) : Prop :=
  ∀ q : Pixel, x ≤ q.1 → q.1 ≤ x + 2 * radius → y ≤ q.2 → q.2 ≤ y + 2 * radius → mask.Selects q

theorem selects_opening_iff (p : Pixel) :
    (morphology mask .opening radius).Selects p ↔ ∃ x y, mask.Square radius x y ∧
      x ≤ p.1 ∧ p.1 ≤ x + 2 * radius ∧ y ≤ p.2 ∧ p.2 ≤ y + 2 * radius := by
  rw [← mem_points, points_opening]
  constructor
  · rintro ⟨-, c, ⟨hlo, hhi, hlo', hhi'⟩, -, hall⟩
    dsimp only at hlo hhi hlo' hhi'
    -- the first pixel of the square is one of the image
    have hcorner : Near radius c (c.1 - radius, c.2 - radius) := by
      unfold Near
      dsimp only
      omega
    obtain ⟨hx, -, hy, -⟩ := points_subset (hall _ hcorner)
    dsimp only at hx hy
    refine ⟨(c.1 - radius).toNat, (c.2 - radius).toNat, fun q hqx hqx' hqy hqy' => ?_,
      by omega, by omega, by omega, by omega⟩
    have hnear : Near radius c ((q.1 : ℤ), (q.2 : ℤ)) := by
      unfold Near
      dsimp only
      omega
    exact mem_points.1 (hall _ hnear)
  · rintro ⟨x, y, hsquare, hx, hx', hy, hy'⟩
    have hp := mem_points.2 (hsquare p hx hx' hy hy')
    have hcentre := hsquare (x + radius, y + radius) (Nat.le_add_right ..)
      (by dsimp only; omega) (Nat.le_add_right ..) (by dsimp only; omega)
    refine ⟨points_subset hp, ((x + radius : ℕ), (y + radius : ℕ)), ?_,
      points_subset (mem_points.2 hcentre), fun q hq => ?_⟩
    · unfold Near
      dsimp only
      omega
    · obtain ⟨hlo, hhi, hlo', hhi'⟩ := hq
      dsimp only at hlo hhi hlo' hhi'
      have hq := mem_points.2 (hsquare (q.1.toNat, q.2.toNat) (by dsimp only; omega)
        (by dsimp only; omega) (by dsimp only; omega) (by dsimp only; omega))
      rwa [show ((q.1.toNat : ℕ) : ℤ) = q.1 by omega,
        show ((q.2.toNat : ℕ) : ℤ) = q.2 by omega] at hq

theorem opening_closing_mono (hwidth : mask'.width = mask.width)
    (hheight : mask'.height = mask.height) (h : ∀ p, mask.Selects p → mask'.Selects p) (p : Pixel) :
    ((morphology mask .opening radius).Selects p → (morphology mask' .opening radius).Selects p) ∧
      ((morphology mask .closing radius).Selects p →
        (morphology mask' .closing radius).Selects p) := by
  have himage : mask'.image = mask.image := by
    unfold Mask.image
    rw [hwidth, hheight]
  have hsub : mask.points ⊆ mask'.points := by
    intro q hq
    obtain ⟨pixel, rfl, -, -⟩ := pixel_of_image (points_subset hq)
    exact mem_points.2 (h pixel (mem_points.1 hq))
  rw [← mem_points, ← mem_points, ← mem_points, ← mem_points, points_opening, points_opening,
    points_closing, points_closing, himage]
  exact ⟨fun hp => opening_mono hsub hp, fun hp => closing_mono hsub hp⟩

/-- Opening and closing are morphological filters, with nothing outside the image, and so is
the one after the other for what is selected away from the border. -/
theorem morphology_filters (mask : Mask) (radius : ℕ) :
    (∀ p, (morphology mask .opening radius).Selects p ↔ ∃ x y, mask.Square radius x y ∧
        x ≤ p.1 ∧ p.1 ≤ x + 2 * radius ∧ y ≤ p.2 ∧ p.2 ≤ y + 2 * radius) ∧
      (∀ p, mask.Selects p → mask.Away radius p → (morphology mask .closing radius).Selects p) ∧
      (∀ mask' : Mask, mask'.width = mask.width → mask'.height = mask.height →
        (∀ p, mask.Selects p → mask'.Selects p) → ∀ p,
          ((morphology mask .opening radius).Selects p →
            (morphology mask' .opening radius).Selects p) ∧
          ((morphology mask .closing radius).Selects p →
            (morphology mask' .closing radius).Selects p)) ∧
      morphology (morphology mask .opening radius) .opening radius
        = morphology mask .opening radius ∧
      morphology (morphology mask .closing radius) .closing radius
        = morphology mask .closing radius ∧
      ((∀ p, mask.Selects p → mask.Away (2 * radius) p) →
        morphology (morphology mask .both radius) .both radius = morphology mask .both radius) := by
  refine ⟨selects_opening_iff, fun p hp haway => ?_,
    fun mask' hwidth hheight h => opening_closing_mono hwidth hheight h, opening_idem, closing_idem,
    fun h => both_idem fun p hp => ?_⟩
  · rw [← mem_points, points_closing]
    refine ⟨points_subset (mem_points.2 hp), fun q hq => ⟨near_image haway hq, _,
      Near.symm _ _ hq, mem_points.2 hp⟩⟩
  · obtain ⟨hx, hx', hy, hy'⟩ := h p hp
    exact ⟨by omega, by omega, by omega, by omega⟩

/-- One pixel in the middle of five by five. -/
def middle : Mask where
  width := 5
  height := 5
  pixels := (List.replicate 25 0).set 12 1
  size := rfl

theorem morphology_filters_middle :
    (morphology middle .closing 1).Selects (2, 2) ∧
      morphology (morphology middle .both 1) .both 1 = morphology middle .both 1 := by
  obtain ⟨-, hclosing, -, -, -, hboth⟩ := morphology_filters middle 1
  have hselected : ∀ x < 5, ∀ y < 5, middle.selected (y * 5 + x) = true → x = 2 ∧ y = 2 := by decide
  refine ⟨hclosing (2, 2) ⟨by decide, by decide, by decide⟩ ⟨by decide, by decide, by decide,
    by decide⟩, hboth fun p hp => ?_⟩
  obtain ⟨hx, hy⟩ := hselected p.1 hp.1 p.2 hp.2.1 hp.2.2
  unfold Mask.Away
  rw [hx, hy]
  decide

end Questix.LabPage.Vision
