import DesignLink.Mapping.Template
import DesignLink.Proofs.Results

/-!
Selectors: a look-up without one starts from the current layer, and everything inside of it from
the layer that it starts from itself.
-/

namespace DesignLink

@[simp] theorem layerOf_none : layerOf none = currentLayer := rfl

@[simp] theorem layerOf_some (layer : String) : layerOf (some layer) = layer := rfl

theorem Helper.render_layerOf (selector : Option String) (helper : Helper) :
    helper.render selector = helper.render (some (layerOf selector)) := by
  cases helper with
  | boolean property values => cases values <;> (rw [Helper.render, Helper.render]; rfl)
  | nestedProps inner props => rw [Helper.render, Helper.render]
  | _ => rw [Helper.render, Helper.render]; rfl

theorem renderValues_layerOf (selector : Option String) (values : List (String × Value)) :
    renderValues selector values = renderValues (some (layerOf selector)) values := by
  induction values with
  | nil => rw [renderValues, renderValues]
  | cons entry rest ih =>
    obtain ⟨key, helper | literal⟩ := entry
    · rw [renderValues, renderValues, ih, Helper.render_layerOf selector]
    · rw [renderValues, renderValues, ih]

theorem renderProps_layerOf (selector : Option String) (props : List (String × Helper)) :
    renderProps selector props = renderProps (some (layerOf selector)) props := by
  induction props with
  | nil => rw [renderProps, renderProps]
  | cons entry rest ih => rw [renderProps, renderProps, ih, Helper.render_layerOf selector]

theorem ValueMapping.render_layerOf (selector : Option String) (values : ValueMapping) :
    values.render selector = values.render (some (layerOf selector)) :=
  congrArg (Except.map renderObject) (renderValues_layerOf selector values)

theorem PropMapping.render_layerOf (selector : Option String) (props : PropMapping) :
    props.render selector = props.render (some (layerOf selector)) :=
  congrArg (Except.map renderObject) (renderProps_layerOf selector props)

end DesignLink
