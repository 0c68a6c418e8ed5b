import Conceal.Editor.Basic
import Conceal.Proofs.Style.Colors

/-!
Styles of looks. A style can be resolved, whatever texts its fields hold and whatever colors the
host knows, unless one of the texts that are read as colors calls `rgb` or `rgba` with an infinite
number. Main statement: `resolves_unless_overflows`.
-/

namespace Conceal

open Color (Overflows)

namespace LayerStyle

variable {palette : Palette} {look : Look} {text word : String} {style : LayerStyle} {c : Color}

/-! ## Borders -/

/-- Of the words of a border those are read as colors that are no widths. -/
theorem failsIf_borderWords (palette : Palette) (words : List String)
    (acc : Float × Option Color) : FailsIf (borderWords palette words acc)
      (∃ word ∈ words, pixels? word = none ∧ Overflows word) := by
  induction words generalizing acc with
  | nil => exact (failsIf_ok _).congr (by simp)
  | cons word rest ih =>
    obtain ⟨width, color⟩ := acc
    rw [borderWords]
    -- a width says nothing about colors, and a color nothing about later words
    cases hword : pixels? word with
    | some w => exact (ih _).congr (by simp [hword])
    | none =>
      refine FailsIf.congr
        (P := Overflows word ∨ ∃ word ∈ rest, pixels? word = none ∧ Overflows word)
        ((Color.failsIf_read palette word).seq fun found => ?_) (by simp [hword])
      cases found <;> exact ih _

/-- Reading the words of a border keeps the color valid; the last color that is read stays. -/
theorem valid_of_borderWords (hpalette : palette.Valid) {words : List String}
    {acc : Float × Option Color} {width : Float} (hacc : ∀ c ∈ acc.2, c.Valid)
    (h : borderWords palette words acc = .ok (width, some c)) : c.Valid := by
  induction words generalizing acc with
  | nil =>
    cases h
    exact hacc c rfl
  | cons word rest ih =>
    obtain ⟨before, color⟩ := acc
    rw [borderWords] at h
    split at h
    · refine ih ?_ h
      exact hacc
    · obtain ⟨found, hfound, h⟩ := bind_eq_ok.mp h
      cases found with
      | none =>
        refine ih ?_ h
        exact hacc
      | some other =>
        refine ih ?_ h
        rintro _ ⟨⟩
        exact Color.valid_of_read hpalette hfound

/-- A border fails in a word that is no width and overflows as a color. -/
theorem failsIf_border (palette : Palette) (text : String) : FailsIf (border palette text)
    (∃ word ∈ Text.words text, pixels? word = none ∧ Overflows word) :=
  ((failsIf_borderWords palette _ _).seq fun _ => failsIf_ok _).congr (by simp)

theorem valid_of_border (hpalette : palette.Valid) {width : Float}
    (h : border palette text = .ok (width, some c)) : c.Valid := by
  obtain ⟨⟨w, color⟩, hwords, h⟩ := bind_eq_ok.mp h
  cases h
  exact valid_of_borderWords hpalette (by simp) hwords

/-! ## Looks -/

/-- The text that a style gives for a property, under one of some names or in a field. -/
def given (look : Look) (names : List String) (field : Option String) : String :=
  choose (Declarations.read (look.style.css.getD "")) names field

/-- A text that is read as a color when the style of a look is resolved. -/
inductive ReadAsColor (look : Look) : String → Prop
  | foreground : ReadAsColor look (given look ["color"] look.style.color)
  | background : ReadAsColor look
      (given look ["background-color", "background"] look.style.backgroundColor)
  | side {word : String} (hword : word ∈ Text.words (given look ["border"] look.style.border))
      (hwidth : pixels? word = none) : ReadAsColor look word
  | border : ReadAsColor look (given look ["border-color"] look.style.borderColor)

/-- A style fails exactly if one of the texts that it reads as colors overflows. -/
theorem failsIf_ofLook (palette : Palette) (look : Look) :
    FailsIf (ofLook palette look) (∃ text, ReadAsColor look text ∧ Overflows text) := by
  refine ((Color.failsIf_read _ _).seq fun _ => (Color.failsIf_read _ _).seq fun _ =>
    (failsIf_border _ _).seq fun _ => (Color.failsIf_read _ _).seq fun _ => failsIf_ok _).congr
      ⟨?_, ?_⟩
  · rintro (h | h | ⟨word, hword, hwidth, h⟩ | h | h)
    · exact ⟨_, .foreground, h⟩
    · exact ⟨_, .background, h⟩
    · exact ⟨_, .side hword hwidth, h⟩
    · exact ⟨_, .border, h⟩
    · exact h.elim
  · rintro ⟨text, hread, h⟩
    cases hread with
    | foreground => exact Or.inl h
    | background => exact Or.inr (Or.inl h)
    | side hword hwidth => exact Or.inr (Or.inr (Or.inl ⟨_, hword, hwidth, h⟩))
    | border => exact Or.inr (Or.inr (Or.inr (Or.inl h)))

/-- A color of a style. -/
def Has (style : LayerStyle) (c : Color) : Prop :=
  style.foreground = some c ∨ style.background = some c ∨ style.borderColor = some c

/-- Every color of a style is valid, that of its border too. -/
theorem valid_of_ofLook (hpalette : palette.Valid) (h : ofLook palette look = .ok style)
    (hc : style.Has c) : c.Valid := by
  obtain ⟨foreground, hforeground, h⟩ := bind_eq_ok.mp h
  obtain ⟨background, hbackground, h⟩ := bind_eq_ok.mp h
  obtain ⟨⟨width, sideColor⟩, hborder, h⟩ := bind_eq_ok.mp h
  obtain ⟨ownColor, hown, h⟩ := bind_eq_ok.mp h
  cases h
  rcases hc with rfl | rfl | hc
  · exact Color.valid_of_read hpalette hforeground
  · exact Color.valid_of_read hpalette hbackground
  · -- the color of the border is its own one, or else that of its sides
    cases ownColor with
    | none =>
      cases hc
      exact valid_of_border hpalette hborder
    | some own =>
      cases hc
      exact Color.valid_of_read hpalette hown

/-- What is wrong with the style of a decoration is why an editor for typing refuses it. -/
theorem refuses_create (area : TextArea) (handle : Option Nat) (look : Look) :
    (Editor.typing area).canvas.refuses (.create handle look) =
      fault? (ofLook area.palette look) := by
  unfold Editor.typing Editor.refusal
  dsimp only
  cases ofLook area.palette look <;> rfl

/-- Whatever texts the fields of a style hold, it is resolved, unless one of those that are read as
colors calls `rgb` or `rgba` with an infinite number; then this fails for that reason, and an editor
for typing refuses to create a decoration of that style. Any other text is a color with every
component between 0 and 255, or none. This holds of every host, as long as the components of the
colors that it knows lie in that range. -/
theorem resolves_unless_overflows (palette : Palette) (hpalette : palette.Valid) (text : String)
    (look : Look) :
    (∀ fault, Color.read palette text = .error fault ↔ fault = .unbounded ∧ Overflows text) ∧
    (∀ c, Color.read palette text = .ok (some c) → c.Valid) ∧
    (∀ fault, ofLook palette look = .error fault ↔
      fault = .unbounded ∧ ∃ text, ReadAsColor look text ∧ Overflows text) ∧
    (∀ style, ofLook palette look = .ok style → ∀ c, style.Has c → c.Valid) ∧
    ∀ area handle fault, (Editor.typing area).canvas.refuses (.create handle look) = some fault ↔
      fault = .unbounded ∧ ∃ text, ReadAsColor look text ∧ Overflows text := by
  refine ⟨Color.failsIf_read palette text, fun _ => Color.valid_of_read hpalette,
    failsIf_ofLook palette look, fun _ h _ => valid_of_ofLook hpalette h, ?_⟩
  intro area handle fault
  rw [refuses_create, fault?_eq_some_iff]
  exact failsIf_ofLook area.palette look fault

/-- A look with numbers out of range, with a fraction and with what is no number, and with a color
that only the host can know. -/
def oddLook : Look where
  style := {
    color := some "rgb(300, -7, 2.9)"
    backgroundColor := some " #fffa50000 "
    border := some "rgba(nan,0,0) 2px" }

/-- A host that knows a few names and a notation with more digits. -/
def deepPalette : Palette := fun text =>
  if text = "#fffa50000" then some ⟨255, 165, 0, 255⟩ else Palette.basic text

/-- Numbers are moved into the range, fractions are dropped, what is no number makes no color, and
what is no notation is the host's. -/
theorem odd_numbers_resolve : ∃ style, ofLook deepPalette oddLook = .ok style ∧
    style.foreground = some ⟨255, 0, 2, 255⟩ ∧ style.background = some ⟨255, 165, 0, 255⟩ ∧
    style.borderColor = none ∧ ∀ c, style.Has c → c.Valid := by
  have hpalette : deepPalette.Valid := by
    intro text c hc
    unfold deepPalette at hc
    split at hc
    · cases hc
      decide
    · exact Palette.valid_basic text c hc
  obtain ⟨-, -, -, hvalid, -⟩ := resolves_unless_overflows deepPalette hpalette "" oddLook
  have hcolors : (ofLook deepPalette oddLook).toOption.map
      (fun s => (s.foreground, s.background, s.borderColor)) =
        some (some ⟨255, 0, 2, 255⟩, some ⟨255, 165, 0, 255⟩, none) := by decide +kernel
  cases h : ofLook deepPalette oddLook with
  | error fault =>
    rw [h] at hcolors
    cases hcolors
  | ok style =>
    rw [h] at hcolors
    obtain ⟨hforeground, hrest⟩ := Prod.mk.inj (Option.some.inj hcolors)
    obtain ⟨hbackground, hborder⟩ := Prod.mk.inj hrest
    exact ⟨style, rfl, hforeground, hbackground, hborder, hvalid style h⟩

/-- An infinite number makes neither a color nor none, and then no style is resolved. Of an opacity
it is enough that it becomes infinite when it is scaled. -/
theorem infinite_numbers_escape : Color.read .basic "rgb(inf,0,0)" = .error .unbounded ∧
    Color.read .basic "rgba(0,0,0,1e307)" = .error .unbounded ∧
    ofLook .basic { style := { color := some "rgb(inf,0,0)" } } = .error .unbounded := by
  simp only [← fault?_eq_some_iff]
  decide +kernel

end LayerStyle

end Conceal
