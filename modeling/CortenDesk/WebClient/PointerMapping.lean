import Mathlib.Algebra.Order.Field.Rat
import Mathlib.Algebra.Order.Floor.Ring
import Mathlib.Data.Rat.Floor
import Mathlib.Tactic.Positivity
import Mathlib.Tactic.FieldSimp
import Mathlib.Tactic.Linarith
import Mathlib.Tactic.Ring

/-!
The mapping of a click on the canvas to a point of the remote desktop, in exact arithmetic. The
picture keeps the display's aspect, so the canvas has bars beside it or above and below it.
-/
namespace CortenDesk
namespace WebClient

structure DisplayRect where
  x : Int
  y : Int
  width : Int
  height : Int

structure DomRect where
  left : ℚ
  top : ℚ
  width : ℚ
  height : ℚ

structure DesktopPoint where
  x : Int
  y : Int
  deriving DecidableEq

/-- `Math.round`: the nearest integer, and of two the greater. -/
def mathRound (v : ℚ) : Int := ⌊v + 1 / 2⌋

def clamp01 (v : ℚ) : ℚ := if v < 0 then 0 else if 1 < v then 1 else v

def mapCoords (clientX clientY : ℚ) (canvasRect : DomRect) (display : DisplayRect) :
    DesktopPoint :=
  let rw := canvasRect.width
  let rh := canvasRect.height
  if display.width ≤ 0 ∨ display.height ≤ 0 ∨ rw ≤ 0 ∨ rh ≤ 0 then
    { x := mathRound display.x, y := mathRound display.y }
  else
    let dispAspect := (display.width : ℚ) / display.height
    let elAspect := rw / rh
    let contentW := if dispAspect < elAspect then rh * dispAspect else rw
    let contentH := if dispAspect < elAspect then rh else rw / dispAspect
    let offX := (rw - contentW) / 2
    let offY := (rh - contentH) / 2
    let fx := clamp01 ((clientX - canvasRect.left - offX) / contentW)
    let fy := clamp01 ((clientY - canvasRect.top - offY) / contentH)
    { x := mathRound (display.x + fx * display.width)
      y := mathRound (display.y + fy * display.height) }

/-- One axis of the mapping: a picture of size `content` in the middle of `size`, onto `length`
pixels from `origin` on. -/
def axis (client start size content : ℚ) (origin length : Int) : Int :=
  mathRound (origin + clamp01 ((client - start - (size - content) / 2) / content) * length)

/-- The width of the picture: the canvas's, or what its height allows. -/
def pictureWidth (canvasRect : DomRect) (display : DisplayRect) : ℚ :=
  min canvasRect.width (canvasRect.height * display.width / display.height)

def pictureHeight (canvasRect : DomRect) (display : DisplayRect) : ℚ :=
  min canvasRect.height (canvasRect.width * display.height / display.width)

/-- A display and a canvas that have an inside. -/
structure Sized (canvasRect : DomRect) (display : DisplayRect) : Prop where
  displayWidth : 0 < display.width
  displayHeight : 0 < display.height
  width : 0 < canvasRect.width
  height : 0 < canvasRect.height

theorem clamp01_nonneg (v : ℚ) : 0 ≤ clamp01 v := by
  unfold clamp01
  split
  · exact le_refl 0
  · split
    · exact zero_le_one
    · next inside _ => exact not_lt.mp inside

theorem clamp01_le_one (v : ℚ) : clamp01 v ≤ 1 := by
  unfold clamp01
  split
  · exact zero_le_one
  · split
    · exact le_refl 1
    · next inside => exact not_lt.mp inside

theorem clamp01_inside {v : ℚ} (lower : 0 ≤ v) (upper : v ≤ 1) : clamp01 v = v := by
  rw [clamp01, if_neg (not_lt.mpr lower), if_neg (not_lt.mpr upper)]

theorem clamp01_mono {u v : ℚ} (order : u ≤ v) : clamp01 u ≤ clamp01 v := by
  by_cases below : u < 0
  · rw [clamp01, if_pos below]
    exact clamp01_nonneg v
  · by_cases beyond : 1 < v
    · have last : clamp01 v = 1 := by
        rw [clamp01, if_neg (by linarith), if_pos beyond]
      exact last ▸ clamp01_le_one u
    · rw [clamp01_inside (by linarith) (by linarith), clamp01_inside (by linarith) (by linarith)]
      exact order

/-- Below a positive bound of at most one the clamp decides nothing. -/
theorem clamp01_lt_iff {v bound : ℚ} (positive : 0 < bound) (small : bound ≤ 1) :
    clamp01 v < bound ↔ v < bound := by
  unfold clamp01
  split
  · next below => exact ⟨fun _ => below.trans positive, fun _ => positive⟩
  · split
    · next beyond => exact ⟨fun less => by linarith, fun less => by linarith⟩
    · exact Iff.rfl

theorem mathRound_mono {u v : ℚ} (order : u ≤ v) : mathRound u ≤ mathRound v :=
  Int.floor_mono (by linarith)

theorem mathRound_add (n : Int) (v : ℚ) : mathRound (n + v) = n + mathRound v := by
  rw [mathRound, mathRound, add_assoc, Int.floor_intCast_add]

theorem mathRound_int (n : Int) : mathRound n = n := by
  have half : mathRound 0 = 0 := by
    rw [mathRound, Int.floor_eq_zero_iff]
    constructor <;> norm_num
  simpa [half] using mathRound_add n 0

theorem mathRound_lt_iff (v : ℚ) (n : Int) : mathRound v < n ↔ v < n - 1 / 2 := by
  rw [mathRound, Int.floor_lt]
  constructor <;> intro less <;> linarith

section
variable {client start size content : ℚ} {origin length : Int}

theorem axis_mono {client' : ℚ} (wide : 0 < content) (long : 0 < length)
    (order : client ≤ client') :
    axis client start size content origin length ≤
      axis client' start size content origin length := by
  have along : (client - start - (size - content) / 2) / content ≤
      (client' - start - (size - content) / 2) / content :=
    div_le_div_of_nonneg_right (by linarith) wide.le
  have pixels : (0 : ℚ) ≤ length := by exact_mod_cast long.le
  exact mathRound_mono (add_le_add_right
    (mul_le_mul_of_nonneg_right (clamp01_mono along) pixels) _)

theorem axis_ge (long : 0 < length) : origin ≤ axis client start size content origin length := by
  have pixels : (0 : ℚ) ≤ length := by exact_mod_cast long.le
  have forward := mul_nonneg
    (clamp01_nonneg ((client - start - (size - content) / 2) / content)) pixels
  calc origin = mathRound origin := (mathRound_int origin).symm
    _ ≤ axis client start size content origin length := mathRound_mono (by linarith)

/-- The last pixel is left half a pixel before the picture's end. -/
theorem axis_lt_iff (wide : 0 < content) (long : 0 < length) :
    axis client start size content origin length < origin + length ↔
      client < start + (size + content) / 2 - content / (2 * length) := by
  have pixels : (1 : ℚ) ≤ length := by exact_mod_cast long
  have rest : 0 < (length : ℚ) := by linarith
  have inverse : (length : ℚ) * (1 - 1 / (2 * length)) = length - 1 / 2 := by field_simp
  have bound : 0 < 1 - 1 / (2 * (length : ℚ)) := by
    rw [sub_pos, div_lt_one (by linarith)]
    linarith
  have small : 1 - 1 / (2 * (length : ℚ)) ≤ 1 := by
    have : 0 ≤ 1 / (2 * (length : ℚ)) := by positivity
    linarith
  have ends : content * (1 - 1 / (2 * (length : ℚ))) = content - content / (2 * length) := by ring
  rw [axis, mathRound_add, add_lt_add_iff_left, mathRound_lt_iff, ← inverse, mul_comm,
    mul_lt_mul_iff_right₀ rest, clamp01_lt_iff bound small, div_lt_iff₀ wide, mul_comm _ content,
    ends]
  constructor <;> intro less <;> linarith

theorem axis_reached (wide : 0 < content) {pixel : Int} (first : origin ≤ pixel)
    (last : pixel < origin + length) :
    ∃ client, axis client start size content origin length = pixel := by
  have long : (0 : ℚ) < length := by
    have : 0 < length := by omega
    exact_mod_cast this
  have lower : (0 : ℚ) ≤ (pixel - origin) / length := by
    have : (origin : ℚ) ≤ pixel := by exact_mod_cast first
    exact div_nonneg (by linarith) long.le
  have upper : ((pixel : ℚ) - origin) / length ≤ 1 := by
    have : (pixel : ℚ) < origin + length := by exact_mod_cast last
    rw [div_le_one long]
    linarith
  refine ⟨start + (size - content) / 2 + (pixel - origin) / length * content, ?_⟩
  have along : (start + (size - content) / 2 + ((pixel : ℚ) - origin) / length * content - start -
      (size - content) / 2) / content = (pixel - origin) / length := by
    field_simp
    ring
  have back : (origin : ℚ) + (pixel - origin) / length * length = pixel := by
    field_simp
    ring
  rw [axis, along, clamp01_inside lower upper, back, mathRound_int]

end

theorem pictureWidth_pos {canvasRect : DomRect} {display : DisplayRect}
    (sized : Sized canvasRect display) : 0 < pictureWidth canvasRect display := by
  have columns : (0 : ℚ) < display.width := by exact_mod_cast sized.displayWidth
  have lines : (0 : ℚ) < display.height := by exact_mod_cast sized.displayHeight
  have height := sized.height
  exact lt_min sized.width (by positivity)

theorem pictureHeight_pos {canvasRect : DomRect} {display : DisplayRect}
    (sized : Sized canvasRect display) : 0 < pictureHeight canvasRect display := by
  have columns : (0 : ℚ) < display.width := by exact_mod_cast sized.displayWidth
  have lines : (0 : ℚ) < display.height := by exact_mod_cast sized.displayHeight
  have width := sized.width
  exact lt_min sized.height (by positivity)

/-- The canvas is wider than the display where the display's aspect leaves bars beside the
picture. -/
theorem wider_iff {canvasRect : DomRect} {display : DisplayRect}
    (sized : Sized canvasRect display) :
    (display.width : ℚ) / display.height < canvasRect.width / canvasRect.height ↔
      canvasRect.height * display.width / display.height < canvasRect.width := by
  have lines : (0 : ℚ) < display.height := by exact_mod_cast sized.displayHeight
  rw [div_lt_div_iff₀ lines sized.height, div_lt_iff₀ lines, mul_comm (display.width : ℚ)]

/-- What the code computes is the picture that keeps the aspect and fits the canvas. -/
theorem mapCoords_axes (clientX clientY : ℚ) {canvasRect : DomRect} {display : DisplayRect}
    (sized : Sized canvasRect display) :
    mapCoords clientX clientY canvasRect display =
      { x := axis clientX canvasRect.left canvasRect.width (pictureWidth canvasRect display)
          display.x display.width
        y := axis clientY canvasRect.top canvasRect.height (pictureHeight canvasRect display)
          display.y display.height } := by
  have columns : (0 : ℚ) < display.width := by exact_mod_cast sized.displayWidth
  have lines : (0 : ℚ) < display.height := by exact_mod_cast sized.displayHeight
  have inside : ¬ (display.width ≤ 0 ∨ display.height ≤ 0 ∨ canvasRect.width ≤ 0 ∨
      canvasRect.height ≤ 0) := by
    simp only [not_or, not_le]
    exact ⟨sized.displayWidth, sized.displayHeight, sized.width, sized.height⟩
  have across : (if (display.width : ℚ) / display.height < canvasRect.width / canvasRect.height
      then canvasRect.height * ((display.width : ℚ) / display.height) else canvasRect.width) =
      pictureWidth canvasRect display := by
    rw [pictureWidth, ← mul_div_assoc]
    split
    · next wider => exact (min_eq_right ((wider_iff sized).mp wider).le).symm
    · next wider => exact (min_eq_left (not_lt.mp (mt (wider_iff sized).mpr wider))).symm
  have down : (if (display.width : ℚ) / display.height < canvasRect.width / canvasRect.height
      then canvasRect.height else canvasRect.width / ((display.width : ℚ) / display.height)) =
      pictureHeight canvasRect display := by
    rw [pictureHeight, div_div_eq_mul_div]
    split
    · next wider =>
        rw [wider_iff sized, div_lt_iff₀ lines] at wider
        exact (min_eq_left ((le_div_iff₀ columns).mpr wider.le)).symm
    · next wider =>
        rw [wider_iff sized, div_lt_iff₀ lines, not_lt] at wider
        exact (min_eq_right ((div_le_iff₀ columns).mpr wider)).symm
  simp only [mapCoords, if_neg inside, across, down, axis]

def OnDisplay (point : DesktopPoint) (display : DisplayRect) : Prop :=
  display.x ≤ point.x ∧ point.x < display.x + display.width ∧
    display.y ≤ point.y ∧ point.y < display.y + display.height

/-- The client point lies more than half a pixel of the display before the right and the lower
edge of the picture. -/
def BeforeEdges (clientX clientY : ℚ) (canvasRect : DomRect) (display : DisplayRect) : Prop :=
  let width := pictureWidth canvasRect display
  let height := pictureHeight canvasRect display
  clientX < canvasRect.left + (canvasRect.width + width) / 2 - width / (2 * display.width) ∧
    clientY < canvasRect.top + (canvasRect.height + height) / 2 - height / (2 * display.height)

/-- The mapping keeps to the display exactly before the right and the lower edge; it is monotone
on either axis and reaches every pixel. -/
theorem mapCoords_on_display (canvasRect : DomRect) (display : DisplayRect)
    (sized : Sized canvasRect display) :
    (∀ clientX clientY, OnDisplay (mapCoords clientX clientY canvasRect display) display ↔
        BeforeEdges clientX clientY canvasRect display) ∧
      (∀ clientX clientX' clientY clientY', clientX ≤ clientX' →
        (mapCoords clientX clientY canvasRect display).x ≤
          (mapCoords clientX' clientY' canvasRect display).x) ∧
      (∀ clientX clientX' clientY clientY', clientY ≤ clientY' →
        (mapCoords clientX clientY canvasRect display).y ≤
          (mapCoords clientX' clientY' canvasRect display).y) ∧
      ∀ point, OnDisplay point display →
        ∃ clientX clientY, mapCoords clientX clientY canvasRect display = point := by
  have wide := pictureWidth_pos sized
  have high := pictureHeight_pos sized
  refine ⟨fun clientX clientY => ?_, fun clientX clientX' clientY clientY' order => ?_,
    fun clientX clientX' clientY clientY' order => ?_, fun point inside => ?_⟩
  · rw [mapCoords_axes clientX clientY sized, OnDisplay, BeforeEdges]
    constructor
    · intro inside
      exact ⟨(axis_lt_iff wide sized.displayWidth).mp inside.2.1,
        (axis_lt_iff high sized.displayHeight).mp inside.2.2.2⟩
    · intro before
      exact ⟨axis_ge sized.displayWidth, (axis_lt_iff wide sized.displayWidth).mpr before.1,
        axis_ge sized.displayHeight, (axis_lt_iff high sized.displayHeight).mpr before.2⟩
  · rw [mapCoords_axes clientX clientY sized, mapCoords_axes clientX' clientY' sized]
    exact axis_mono wide sized.displayWidth order
  · rw [mapCoords_axes clientX clientY sized, mapCoords_axes clientX' clientY' sized]
    exact axis_mono high sized.displayHeight order
  · obtain ⟨clientX, reachedX⟩ : ∃ clientX, axis clientX canvasRect.left canvasRect.width
        (pictureWidth canvasRect display) display.x display.width = point.x :=
      axis_reached wide inside.1 inside.2.1
    obtain ⟨clientY, reachedY⟩ : ∃ clientY, axis clientY canvasRect.top canvasRect.height
        (pictureHeight canvasRect display) display.y display.height = point.y :=
      axis_reached high inside.2.2.1 inside.2.2.2
    exact ⟨clientX, clientY, by rw [mapCoords_axes clientX clientY sized, reachedX, reachedY]⟩

/-- A canvas over a whole display of 1920 by 1080 pixels, with a click inside it. -/
theorem mapCoords_on_display_inside :
    Sized ⟨0, 0, 1920, 1080⟩ ⟨0, 0, 1920, 1080⟩ ∧
      OnDisplay (mapCoords 1919 1079 ⟨0, 0, 1920, 1080⟩ ⟨0, 0, 1920, 1080⟩)
        ⟨0, 0, 1920, 1080⟩ := by
  have sized : Sized ⟨0, 0, 1920, 1080⟩ ⟨0, 0, 1920, 1080⟩ := by
    constructor <;> norm_num
  refine ⟨sized, ((mapCoords_on_display _ _ sized).1 1919 1079).mpr ?_⟩
  norm_num [BeforeEdges, pictureWidth, pictureHeight]

/-- At the right edge of that canvas the click lands on the column after the display's last. -/
theorem click_leaves_display :
    Sized ⟨0, 0, 1920, 1080⟩ ⟨0, 0, 1920, 1080⟩ ∧
      mapCoords 1920 500 ⟨0, 0, 1920, 1080⟩ ⟨0, 0, 1920, 1080⟩ = ⟨1920, 500⟩ ∧
      ¬ OnDisplay (mapCoords 1920 500 ⟨0, 0, 1920, 1080⟩ ⟨0, 0, 1920, 1080⟩)
        ⟨0, 0, 1920, 1080⟩ := by
  have lands : mapCoords 1920 500 ⟨0, 0, 1920, 1080⟩ ⟨0, 0, 1920, 1080⟩ = ⟨1920, 500⟩ := by
    norm_num [mapCoords, mathRound, clamp01]
  refine ⟨by constructor <;> norm_num, lands, ?_⟩
  rw [lands]
  exact fun inside => absurd inside.2.1 (by decide)

end WebClient
end CortenDesk
