-- A reader of a stream, element by element. It cuts the stream into lines, and a line may open a group
-- of lines, up to one that closes it. A line outside of a group, or a whole group, is a unit. What is
-- read does not depend on how the stream is cut into pieces.
import Mathlib.Data.List.Infix

namespace readers

/-- How a line ends, which lines open a group, and which close it. -/
structure Grammar (α β : Type*) where
  ending : List α
  opens : List α → Option β
  closes : β → List α → Bool
  ending_ne_nil : ending ≠ []

/-- The line and the group that have not ended, and the units before them. -/
@[ext] structure Reader (α β : Type*) where
  line : List α
  group : Option (β × List α)
  units : List (List α)

variable {α β : Type*} [DecidableEq α]

/-- A reader between two units. -/
def Reader.idle (us : List (List α)) : Reader α β := ⟨[], none, us⟩

variable (g : Grammar α β)

def Reader.endLine (r : Reader α β) (line : List α) : Reader α β :=
  match r.group with
  | none =>
    match g.opens line with
    | none => .idle (r.units ++ [line])
    | some b => ⟨[], some (b, line), r.units⟩
  | some (b, text) =>
    if g.closes b line then .idle (r.units ++ [text ++ line])
    else ⟨[], some (b, text ++ line), r.units⟩

def Reader.feed (r : Reader α β) (a : α) : Reader α β :=
  if g.ending <:+ r.line ++ [a] then r.endLine g (r.line ++ [a]) else { r with line := r.line ++ [a] }

def Reader.read (r : Reader α β) (text : List α) : Reader α β := text.foldl (·.feed g) r

/-- A text that is one unit. -/
def Whole (text : List α) : Prop := (Reader.idle []).read g text = .idle [text]

variable {g}

theorem read_append (r : Reader α β) (a b : List α) : r.read g (a ++ b) = (r.read g a).read g b :=
  List.foldl_append

/-! ## The units before -/

/-- The same, with more units before. -/
def Reader.after (us : List (List α)) (r : Reader α β) : Reader α β :=
  { r with units := us ++ r.units }

omit [DecidableEq α] in
theorem endLine_after (us : List (List α)) (r : Reader α β) (line : List α) :
    (r.after us).endLine g line = (r.endLine g line).after us := by
  obtain ⟨l, group, units⟩ := r
  cases group with
  | none =>
    simp only [Reader.endLine, Reader.after]
    cases g.opens line with
    | none => simp [Reader.idle]
    | some b => rfl
  | some o =>
    simp only [Reader.endLine, Reader.after]
    by_cases hc : g.closes o.1 line = true
    · simp [hc, Reader.idle]
    · simp [hc]

theorem feed_after (us : List (List α)) (r : Reader α β) (a : α) :
    (r.after us).feed g a = (r.feed g a).after us := by
  unfold Reader.feed
  by_cases hend : g.ending <:+ r.line ++ [a]
  · rw [if_pos hend, ← endLine_after]
    exact if_pos hend
  · rw [if_neg hend]
    exact if_neg hend

theorem read_after (us : List (List α)) (r : Reader α β) (text : List α) :
    (r.after us).read g text = (r.read g text).after us := by
  induction text generalizing r with
  | nil => rfl
  | cons a text ih =>
    simp only [Reader.read, List.foldl_cons] at ih ⊢
    rw [feed_after, ih]

theorem read_idle (us : List (List α)) (text : List α) :
    (Reader.idle us).read g text = ((Reader.idle []).read g text).after us := by
  rw [← read_after]
  simp [Reader.after, Reader.idle]

/-! ## Whole texts -/

/-- The line ends at its end, and not before. -/
structure Line (g : Grammar α β) (line : List α) : Prop where
  ends : g.ending <:+ line
  first : ∀ p, p <+: line → g.ending <:+ p → p = line

theorem read_line {line : List α} (h : Line g line) {r : Reader α β} (hr : r.line = []) :
    r.read g line = r.endLine g line := by
  have hread : ∀ rest l, l ++ rest = line → rest ≠ [] →
      ({ r with line := l } : Reader α β).read g rest = r.endLine g line := by
    intro rest
    induction rest with
    | nil => exact fun l _ hne => absurd rfl hne
    | cons a rest ih =>
      intro l he _
      simp only [Reader.read, List.foldl_cons, Reader.feed] at ih ⊢
      by_cases hend : g.ending <:+ l ++ [a]
      · have hp : l ++ [a] = line := h.first _ ⟨rest, by simpa using he⟩ hend
        have hnil : rest = [] := by
          rw [← he] at hp
          simpa using hp
        rw [if_pos hend, hnil, hp]
        rfl
      · have hne : rest ≠ [] := by
          rintro rfl
          exact hend (he ▸ h.ends)
        rw [if_neg hend]
        exact ih (l ++ [a]) (by simpa using he) hne
  have hne : line ≠ [] := by
    rintro rfl
    exact g.ending_ne_nil (List.suffix_nil.mp h.ends)
  have hself : ({ r with line := [] } : Reader α β) = r := by
    rw [← hr]
  exact hself ▸ hread line [] rfl hne

omit [DecidableEq α] in
/-- A text that has an end of a line begins with a line. -/
theorem exists_line {text : List α} (h : g.ending <:+: text) : ∃ p, p <+: text ∧ Line g p := by
  obtain ⟨a, b, rfl⟩ := h
  induction hn : a.length using Nat.strong_induction_on generalizing a b with
  | _ n ih =>
    by_cases hfirst : ∀ p, p <+: a ++ g.ending → g.ending <:+ p → p = a ++ g.ending
    · exact ⟨a ++ g.ending, ⟨b, rfl⟩, List.suffix_append _ _, hfirst⟩
    · simp only [not_forall] at hfirst
      obtain ⟨p, ⟨rest, hrest⟩, ⟨a', rfl⟩, hne⟩ := hfirst
      have hlen := congrArg List.length hrest
      have hpos : rest ≠ [] := by
        rintro rfl
        exact hne (by simpa using hrest)
      have hrpos := List.length_pos_iff.mpr hpos
      simp only [List.length_append] at hlen
      obtain ⟨q, hq, hline⟩ := ih a'.length (by omega) a' (rest ++ b) rfl
      refine ⟨q, ?_, hline⟩
      rw [← hrest]
      simpa using hq

/-- A text that ends as a line, and that no line of opens a group, is whole if and only if it is one
line. -/
theorem whole_iff_line {text : List α} (hend : g.ending <:+ text)
    (hopens : ∀ p, p <+: text → g.opens p = none) : Whole g text ↔ Line g text := by
  have hunit : ∀ p, p <+: text → Line g p → (Reader.idle []).read g p = .idle [p] := by
    intro p hp hline
    rw [read_line hline rfl]
    simp [Reader.endLine, Reader.idle, hopens p hp]
  constructor
  · intro hwhole
    obtain ⟨p, ⟨rest, rfl⟩, hline⟩ := exists_line hend.isInfix
    have hread : (Reader.idle []).read g (p ++ rest) = .idle [p ++ rest] := hwhole
    rw [read_append, hunit p ⟨rest, rfl⟩ hline, read_idle] at hread
    have hunits := congrArg Reader.units hread
    simp only [Reader.after, Reader.idle, List.singleton_append, List.cons.injEq] at hunits
    exact hunits.1 ▸ hline
  · exact fun hline => hunit text (List.prefix_rfl) hline

/-- A line that opens a group, lines that do not close it, and one that does. -/
theorem whole_group {first last : List α} {middle : List (List α)} {b : β} (hfirst : Line g first)
    (hmiddle : ∀ l ∈ middle, Line g l) (hlast : Line g last) (hopens : g.opens first = some b)
    (hgoes : ∀ l ∈ middle, g.closes b l = false) (hcloses : g.closes b last = true) :
    Whole g (first ++ middle.flatten ++ last) := by
  have hread : ∀ text, (⟨[], some (b, text), []⟩ : Reader α β).read g middle.flatten =
      ⟨[], some (b, text ++ middle.flatten), []⟩ := by
    induction middle with
    | nil =>
      intro text
      rw [List.flatten_nil, List.append_nil]
      rfl
    | cons l middle ih =>
      intro text
      rw [List.flatten_cons, read_append, read_line (hmiddle l List.mem_cons_self) rfl]
      simp only [Reader.endLine, hgoes l List.mem_cons_self, Bool.false_eq_true, if_false]
      rw [ih (fun x hx => hmiddle x (List.mem_cons_of_mem _ hx))
        (fun x hx => hgoes x (List.mem_cons_of_mem _ hx)), List.append_assoc]
  unfold Whole
  rw [read_append, read_append, read_line hfirst rfl]
  simp only [Reader.endLine, Reader.idle, hopens]
  rw [hread, read_line hlast rfl]
  simp [Reader.endLine, Reader.idle, hcloses]

end readers
