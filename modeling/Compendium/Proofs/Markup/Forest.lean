import Compendium.Markup

/-!
# Induction on markup

What putting markup together keeps holds of all markup, if it holds of single pieces without content
and passes from the content of an element to the element.
-/

namespace Compendium.Markup

theorem forest_induction {Q : List Markup → Prop} (nil : Q [])
    (append : ∀ l m, Q l → Q m → Q (l ++ m)) (text : ∀ s, Q [.text s])
    (element : ∀ tag attrs flags content, Q content → Q [.element tag attrs flags content])
    (void : ∀ tag attrs flags, Q [.void tag attrs flags]) (script : ∀ json, Q [.script json])
    (raw : ∀ html, Q [.raw html]) (content : List Markup) : Q content :=
  @Markup.rec_1 (fun m => Q [m]) Q text element void script raw nil (fun m => append [m]) content

end Compendium.Markup
