import Enclave.Text.Cut
import Mathlib.Data.List.Basic
import Mathlib.Order.Bounds.Basic

/-!
# What a cut keeps

A text that was cut fits into its limit, whatever stands in it (`cut_size`): what is kept of it fits
into what the marker leaves, and there is no marker where it would not fit.

Nothing more could be kept. A boundary of a text is a place between two of its characters, or at one
of its ends, counted in bytes, and `fittingPart` ends at the last boundary within its room
(`isGreatest_fittingPart`). `cut_keeps` says of the bytes of a text what becomes of them.
-/

namespace Enclave.Text

theorem size_ofList_cons (c : Char) (cs : List Char) :
    (String.ofList (c :: cs)).utf8ByteSize = c.utf8Size + (String.ofList cs).utf8ByteSize := by
  rw [String.ofList_cons, String.utf8ByteSize_append, String.utf8ByteSize_singleton]

/-- A text has no more characters than bytes. -/
theorem length_le_size (cs : List Char) : cs.length ≤ (String.ofList cs).utf8ByteSize := by
  induction cs with
  | nil => exact Nat.zero_le _
  | cons c cs ih =>
    have hc := Char.utf8Size_pos c
    rw [size_ofList_cons, List.length_cons]
    omega

theorem le_fitting (room count : Nat) (cs : List Char) : count ≤ fitting room count cs := by
  induction cs generalizing room count with
  | nil => exact Nat.le_refl count
  | cons c cs ih =>
    rw [fitting]
    split
    · exact Nat.le_of_succ_le (ih _ _)
    · exact Nat.le_refl count

/-- What fits into some bytes does: the characters counted from `count` on take up no more than the
room that there is. -/
theorem size_take_fitting (room count : Nat) (cs : List Char) :
    (String.ofList (cs.take (fitting room count cs - count))).utf8ByteSize ≤ room := by
  induction cs generalizing room count with
  | nil =>
    rw [List.take_nil]
    exact Nat.zero_le room
  | cons c cs ih =>
    rw [fitting]
    split
    · rename_i hfits
      have hle := le_fitting (room - c.utf8Size) (count + 1) cs
      have hrest := ih (room - c.utf8Size) (count + 1)
      obtain ⟨more, hmore⟩ := Nat.exists_eq_add_of_le hle
      have htaken : fitting (room - c.utf8Size) (count + 1) cs - count = more + 1 := by omega
      have hkept : fitting (room - c.utf8Size) (count + 1) cs - (count + 1) = more := by omega
      rw [hkept] at hrest
      rw [htaken, List.take_succ_cons, size_ofList_cons]
      omega
    · rw [Nat.sub_self, List.take_zero]
      exact Nat.zero_le room

theorem size_fittingPart (room : Nat) (cs : List Char) :
    (String.ofList (fittingPart room cs)).utf8ByteSize ≤ room :=
  size_take_fitting room 0 cs

/-- A cut text has no more bytes than its limit. -/
theorem cut_size (text : String) (limit : Nat) : (cut text limit).1.utf8ByteSize ≤ limit := by
  unfold cut
  split
  · assumption
  · have hpart := size_fittingPart (limit - cutMarker.utf8ByteSize) text.toList
    simp only
    split
    · rename_i hmarker
      rw [String.utf8ByteSize_append]
      omega
    · omega

/-! ## Boundaries -/

/-- Whether some bytes at the beginning of a text are whole characters. -/
def IsBoundary (text : String) (place : Nat) : Prop := String.Pos.Raw.IsValid text ⟨place⟩

/-- The boundaries are where a text can be taken apart. -/
theorem isBoundary_iff {text : String} {place : Nat} :
    IsBoundary text place ↔
      ∃ before after, text = before ++ after ∧ place = before.utf8ByteSize := by
  rw [IsBoundary, String.Pos.Raw.isValid_iff_exists_append]
  refine exists_congr fun before => exists_congr fun after => and_congr_right fun _ => ?_
  rw [String.Pos.Raw.ext_iff, String.byteIdx_rawEndPos]

/-- All of a beginning that fits is counted. -/
theorem length_le_fitting {room : Nat} {before : List Char}
    (h : (String.ofList before).utf8ByteSize ≤ room) (count : Nat) (after : List Char) :
    before.length + count ≤ fitting room count (before ++ after) := by
  induction before generalizing room count with
  | nil =>
    rw [List.length_nil, Nat.zero_add]
    exact le_fitting room count _
  | cons c before ih =>
    rw [size_ofList_cons] at h
    have hfits : c.utf8Size ≤ room := by omega
    have hrest : (String.ofList before).utf8ByteSize ≤ room - c.utf8Size := by omega
    rw [List.cons_append, fitting, if_pos hfits, List.length_cons]
    have hcounted := ih hrest (count + 1)
    omega

/-- A beginning that fits is no longer than what is kept. -/
theorem prefix_fittingPart {room : Nat} {before : List Char}
    (h : (String.ofList before).utf8ByteSize ≤ room) (after : List Char) :
    before <+: fittingPart room (before ++ after) := by
  have hlength : before.length ≤ fitting room 0 (before ++ after) :=
    length_le_fitting h 0 after
  rw [fittingPart, List.prefix_take_iff]
  exact ⟨List.prefix_append before after, hlength⟩

theorem fittingPart_append (room : Nat) (text : String) :
    ∃ rest, text = String.ofList (fittingPart room text.toList) ++ rest := by
  refine ⟨String.ofList (text.toList.drop (fitting room 0 text.toList)), ?_⟩
  rw [fittingPart, ← String.ofList_append, List.take_append_drop, String.ofList_toList]

theorem size_le_of_prefix {before after : List Char} (h : before <+: after) :
    (String.ofList before).utf8ByteSize ≤ (String.ofList after).utf8ByteSize := by
  obtain ⟨rest, rfl⟩ := h
  rw [String.ofList_append, String.utf8ByteSize_append]
  exact Nat.le_add_right _ _

/-- What is kept ends at the last boundary within its room. -/
theorem isGreatest_fittingPart (room : Nat) (text : String) :
    IsGreatest {place | IsBoundary text place ∧ place ≤ room}
      (String.ofList (fittingPart room text.toList)).utf8ByteSize := by
  constructor
  · obtain ⟨rest, hrest⟩ := fittingPart_append room text
    exact ⟨isBoundary_iff.mpr ⟨_, rest, hrest, rfl⟩, size_fittingPart room text.toList⟩
  · rintro place ⟨hplace, hroom⟩
    obtain ⟨before, after, rfl, rfl⟩ := isBoundary_iff.mp hplace
    have hbefore : (String.ofList before.toList).utf8ByteSize ≤ room := by
      rwa [String.ofList_toList]
    have hfront := prefix_fittingPart hbefore after.toList
    rw [← String.toList_append] at hfront
    have hle := size_le_of_prefix hfront
    rwa [String.ofList_toList] at hle

/-- The bytes of what is kept are the bytes of the text in front of that boundary. -/
theorem bytes_fittingPart (room : Nat) (text : String) :
    (String.ofList (fittingPart room text.toList)).toByteArray =
      text.toByteArray.extract 0 (String.ofList (fittingPart room text.toList)).utf8ByteSize := by
  obtain ⟨rest, hrest⟩ := fittingPart_append room text
  generalize String.ofList (fittingPart room text.toList) = part at hrest ⊢
  rw [hrest, String.toByteArray_append,
    ByteArray.extract_append_eq_left String.size_toByteArray.symm]

/-! ## The cut -/

theorem cut_of_le {text : String} {limit : Nat} (h : text.utf8ByteSize ≤ limit) :
    cut text limit = (text, false) := by
  rw [cut, if_pos h]

/-- A text that is too long is cut, and ends in the marker if there is room for it. -/
theorem cut_of_lt {text : String} {limit : Nat} (h : limit < text.utf8ByteSize) :
    cut text limit =
      (if cutMarker.utf8ByteSize ≤ limit then
        String.ofList (fittingPart (limit - cutMarker.utf8ByteSize) text.toList) ++ cutMarker
      else String.ofList (fittingPart (limit - cutMarker.utf8ByteSize) text.toList), true) := by
  rw [cut, if_neg (Nat.not_le.mpr h)]

/-- What becomes of a text with a limit. A text within the limit stays. Any other one is cut: the
bytes in front of its last boundary within what the marker leaves are kept, and the marker follows
them, or nothing is kept where the limit is too small for the marker. -/
structure Keeps (text : String) (limit : Nat) (out : String × Bool) : Prop where
  whole : text.utf8ByteSize ≤ limit → out = (text, false)
  flagged : limit < text.utf8ByteSize → out.2 = true
  marked : limit < text.utf8ByteSize → cutMarker.utf8ByteSize ≤ limit → ∃ place,
    IsGreatest {place | IsBoundary text place ∧ place ≤ limit - cutMarker.utf8ByteSize} place ∧
      out.1.toByteArray = text.toByteArray.extract 0 place ++ cutMarker.toByteArray
  bare : limit < text.utf8ByteSize → limit < cutMarker.utf8ByteSize → out.1 = ""
  size : out.1.utf8ByteSize ≤ limit
  valid : out.1.toByteArray.IsValidUTF8
  settled : cut out.1 limit = (out.1, false)

/-- **A cut keeps as much as it can** of a text, and all of a text that was cut before. -/
theorem cut_keeps (text : String) (limit : Nat) : Keeps text limit (cut text limit) where
  whole := cut_of_le
  flagged h := by rw [cut_of_lt h]
  marked h hmarker := by
    refine ⟨_, isGreatest_fittingPart (limit - cutMarker.utf8ByteSize) text, ?_⟩
    rw [cut_of_lt h, if_pos hmarker, String.toByteArray_append, bytes_fittingPart]
  bare h hmarker := by
    have hroom : limit - cutMarker.utf8ByteSize = 0 := Nat.sub_eq_zero_of_le hmarker.le
    have hsize := size_fittingPart 0 text.toList
    rw [cut_of_lt h, if_neg (Nat.not_le.mpr hmarker), hroom]
    exact String.utf8ByteSize_eq_zero_iff.mp (Nat.le_zero.mp hsize)
  size := cut_size text limit
  valid := (cut text limit).1.isValidUTF8
  settled := cut_of_le (cut_size text limit)

example : cut "ééééééééé" 17 = ("é…[truncated]", true) := by decide +kernel

end Enclave.Text
