/-! # Tooltips

A tooltip is a bold title followed by detail lines.

* **`Tooltip.heading`**: the title as marked up.
* **`Tooltip.write`**: a title with its details.
* **`Tooltip.retitle`**: a tooltip whose title follows a change of name.
* **`Tooltip.retitle_heading`**: retitling changes the title and nothing else. -/

namespace Straightedge.Tooltip

/-- A title as marked up. -/
def heading (title : String) : String := "<strong>" ++ title ++ "</strong>"

/-- A title and detail lines. -/
def write (title : String) (details : List String) : String :=
  details.foldl (fun text detail => text ++ "<br>" ++ detail) (heading title)

/-- The tooltip with the title `new` if its title is `old`, otherwise unchanged. -/
def retitle (old new tip : String) : String :=
  match (heading old).toList.isPrefixOf? tip.toList with
  | some details => heading new ++ String.ofList details
  | none => tip

/-- A list is a prefix of itself followed by others, which are left. -/
theorem isPrefixOf?_append (front rest : List Char) :
    front.isPrefixOf? (front ++ rest) = some rest := by
  induction front with
  | nil => rfl
  | cons c front ih =>
    show (if (c == c) = true then front.isPrefixOf? (front ++ rest) else none) = some rest
    simp [ih]

/-- Retitling changes the title and nothing else. -/
theorem retitle_heading (old new details : String) :
    retitle old new (heading old ++ details) = heading new ++ details := by
  simp only [retitle, String.toList_append, isPrefixOf?_append, String.ofList_toList]

end Straightedge.Tooltip
