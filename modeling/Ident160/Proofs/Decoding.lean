import Ident160.Proofs.Layers
import Ident160.Proofs.Results
import Ident160.Settings.Load

/-!
What must be found for given settings to be loaded: layers that can be read and that fit, and in
the document that they make, a section each with a value for each setting, or none.
-/

namespace Ident160

open Document (Value Entries)

namespace Settings

/-- A section that is missing counts as an empty one. -/
theorem decode_eq_ok_iff {v : Value} {settings : Settings} :
    decode v = .ok settings ↔
      decodeDisplay ((v.lookup "display").getD (.table [])) = .ok settings.display ∧
        decodeRandom ((v.lookup "random").getD (.table [])) = .ok settings.random := by
  obtain ⟨display, random⟩ := settings
  simp only [decode, bind_eq_ok_iff]
  constructor
  · rintro ⟨display', hdisplay, random', hrandom, hsettings⟩
    obtain ⟨rfl, rfl⟩ := Settings.mk.inj (Except.ok.inj hsettings)
    exact ⟨hdisplay, hrandom⟩
  · rintro ⟨hdisplay, hrandom⟩
    exact ⟨display, hdisplay, random, hrandom, rfl⟩

theorem decodeDisplay_table {es : Entries} {display : DisplaySettings} :
    decodeDisplay (.table es) = .ok display ↔
      decodeTruth true (es.lookup "uppercase") = .ok display.uppercase ∧
        decodeTruth true (es.lookup "show_limbs") = .ok display.showLimbs := by
  obtain ⟨uppercase, showLimbs⟩ := display
  simp only [decodeDisplay, member, bind_eq_ok_iff, Except.ok.injEq, exists_eq_left']
  constructor
  · rintro ⟨uppercase', huppercase, showLimbs', hshowLimbs, hdisplay⟩
    obtain ⟨rfl, rfl⟩ := DisplaySettings.mk.inj (Except.ok.inj hdisplay)
    exact ⟨huppercase, hshowLimbs⟩
  · rintro ⟨huppercase, hshowLimbs⟩
    exact ⟨uppercase, huppercase, showLimbs, hshowLimbs, rfl⟩

theorem decodeRandom_table {es : Entries} {random : RandomSettings} :
    decodeRandom (.table es) = .ok random ↔ decodeSeed (es.lookup "seed") = .ok random.seed := by
  obtain ⟨seed⟩ := random
  simp only [decodeRandom, member, bind_eq_ok_iff, Except.ok.injEq, exists_eq_left']
  constructor
  · rintro ⟨seed', hseed, hrandom⟩
    obtain rfl := RandomSettings.mk.inj (Except.ok.inj hrandom)
    exact hseed
  · intro hseed
    exact ⟨seed, hseed, rfl⟩

/-! ### Layers -/

/-- A layer that has been found and fits is laid below all that follow. -/
theorem foldlM_overlay_ok {capacity : Nat} {below v : Value} {es : Entries}
    {layers : List (Except SettingsFault Entries)} :
    (.ok es :: layers).foldlM (overlay capacity) below = .ok v ↔
      Document.Fits capacity below es ∧
        layers.foldlM (overlay capacity) (Document.coverAll below es) = .ok v := by
  rw [List.foldlM_cons, bind_eq_ok_iff]
  constructor
  · rintro ⟨middle, hlaid, hrest⟩
    simp only [overlay] at hlaid
    split at hlaid
    · next w hcovered =>
      obtain rfl := Except.ok.inj hlaid
      obtain ⟨hfits, rfl⟩ := Document.coverAllWithin_eq_some_iff.mp hcovered
      exact ⟨hfits, hrest⟩
    · cases hlaid
  · rintro ⟨hfits, hrest⟩
    refine ⟨_, ?_, hrest⟩
    rw [Document.Fits] at hfits
    rw [overlay, hfits]

/-- Layers that have been found make settings if they fit, one behind the other, and if the
document that they make is one of settings. -/
theorem ofLayers_eq_ok_iff {capacity : Nat} {layers : List Entries} {settings : Settings} :
    ofLayers capacity (layers.map .ok) = .ok settings ↔
      Document.Fits capacity defaultDocument layers.flatten ∧
        decode (Document.coverAll defaultDocument layers.flatten) = .ok settings := by
  have hlaid : ∀ {below v : Value},
      (layers.map Except.ok).foldlM (overlay capacity) below = .ok v ↔
        Document.Fits capacity below layers.flatten ∧
          Document.coverAll below layers.flatten = v := by
    induction layers with
    | nil =>
      intro below v
      exact ⟨fun h => ⟨rfl, Except.ok.inj h⟩, fun h => congrArg Except.ok h.2⟩
    | cons es layers ih =>
      intro below v
      rw [List.map_cons, foldlM_overlay_ok, ih, List.flatten_cons, Document.fits_append,
        Document.coverAll_append, and_assoc]
  rw [ofLayers, bind_eq_ok_iff]
  constructor
  · rintro ⟨v, hv, hdecode⟩
    obtain ⟨hfits, rfl⟩ := hlaid.mp hv
    exact ⟨hfits, hdecode⟩
  · rintro ⟨hfits, hdecode⟩
    exact ⟨_, hlaid.mpr ⟨hfits, rfl⟩, hdecode⟩

/-- Layers make settings only if all of them have been found. -/
theorem found_of_ofLayers {capacity : Nat} {layers : List (Except SettingsFault Entries)}
    {settings : Settings} (h : ofLayers capacity layers = .ok settings) :
    ∃ found : List Entries, layers = found.map .ok := by
  obtain ⟨v, hv, _⟩ := bind_eq_ok_iff.mp h
  clear h
  generalize defaultDocument = below at hv
  induction layers generalizing below with
  | nil => exact ⟨[], rfl⟩
  | cons layer layers ih =>
    cases layer with
    | error fault => cases hv
    | ok es =>
      obtain ⟨_, hrest⟩ := foldlM_overlay_ok.mp hv
      obtain ⟨found, rfl⟩ := ih _ hrest
      exact ⟨es :: found, rfl⟩

/-- No document is too long to be read as settings. -/
theorem decode_ne_overlong (v : Value) : decode v ≠ .error .overlong := by
  have hmember : ∀ name place w, member name place w ≠ .error .overlong := by
    intro name place w
    unfold member
    split <;> nofun
  have htruth : ∀ fallback found, decodeTruth fallback found ≠ .error .overlong := by
    intro fallback found
    unfold decodeTruth
    split
    · nofun
    · split <;> nofun
  have hseed : ∀ found, decodeSeed found ≠ .error .overlong := by
    intro found
    unfold decodeSeed
    split
    · nofun
    · nofun
    · split <;> nofun
  have hdisplay : ∀ w, decodeDisplay w ≠ .error .overlong := by
    intro w h
    simp only [decodeDisplay, bind_eq_error_iff, hmember, htruth, false_or] at h
    obtain ⟨_, _, _, _, _, _, _, _, ⟨⟩⟩ := h
  have hrandom : ∀ w, decodeRandom w ≠ .error .overlong := by
    intro w h
    simp only [decodeRandom, bind_eq_error_iff, hmember, hseed, false_or] at h
    obtain ⟨_, _, _, _, ⟨⟩⟩ := h
  intro h
  simp only [decode, bind_eq_error_iff, hdisplay, hrandom, false_or] at h
  obtain ⟨_, _, _, _, ⟨⟩⟩ := h

/-- Settings are too long only by an entry of a layer that has been found, through an index that
arrays have no room for. -/
theorem exists_index_of_overlong {capacity : Nat} {layers : List (Except SettingsFault Entries)}
    (hfound : ∀ fault, .error fault ∈ layers → fault ≠ .overlong)
    (h : ofLayers capacity layers = .error .overlong) :
    ∃ es, .ok es ∈ layers ∧ ∃ entry ∈ es, ∃ i,
      .index i ∈ Document.KeyPath.ofName entry.1 ∧ capacity < Value.itemsFor i := by
  rw [ofLayers, bind_eq_error_iff] at h
  obtain hlaid | ⟨_, _, hdecode⟩ := h
  · generalize defaultDocument = below at hlaid
    induction layers generalizing below with
    | nil => cases hlaid
    | cons layer layers ih =>
      rw [List.foldlM_cons, bind_eq_error_iff] at hlaid
      obtain hlayer | ⟨middle, _, hrest⟩ := hlaid
      · cases layer with
        | error fault =>
          obtain rfl := Except.error.inj hlayer
          exact absurd rfl (hfound .overlong List.mem_cons_self)
        | ok es =>
          have hnarrow : ¬ Document.Fits capacity below es := by
            intro hfits
            rw [Document.Fits] at hfits
            rw [overlay, hfits] at hlayer
            cases hlayer
          exact ⟨es, List.mem_cons_self, Document.exists_index_of_not_fits hnarrow⟩
      · obtain ⟨es, hes, hindex⟩ :=
          ih (fun fault hfault => hfound fault (List.mem_cons_of_mem _ hfault)) middle hrest
        exact ⟨es, List.mem_cons_of_mem _ hes, hindex⟩
  · exact absurd hdecode (decode_ne_overlong _)

end Settings

namespace Host

variable {host : Host} {loader : Loader} {settings : Settings}

theorem load_eq_ok_iff :
    host.load loader = .ok settings ↔
      ∃ system, host.optionalEntries loader systemFile = .ok system ∧
        ∃ user, host.userEntries loader = .ok user ∧
          Settings.ofLayers loader.capacity
            ([system, user, Variables.entries host.environment].map .ok) = .ok settings := by
  constructor
  · intro h
    obtain ⟨found, hfound⟩ := Settings.found_of_ofLayers h
    rw [load, hfound] at h
    obtain ⟨system, rest, rfl, hsystem, hrest⟩ := List.map_eq_cons_iff.mp hfound.symm
    obtain ⟨user, rest, rfl, huser, hrest⟩ := List.map_eq_cons_iff.mp hrest
    obtain ⟨last, rest, rfl, hlast, hrest⟩ := List.map_eq_cons_iff.mp hrest
    obtain rfl := List.map_eq_nil_iff.mp hrest
    obtain rfl := Except.ok.inj hlast
    exact ⟨system, hsystem.symm, user, huser.symm, h⟩
  · rintro ⟨system, hsystem, user, huser, h⟩
    rw [load, layers, hsystem, huser]
    exact h

theorem loadFrom_eq_ok_iff {path : String} :
    host.loadFrom loader path = .ok settings ↔
      ∃ found, host.requiredEntries loader path = .ok found ∧
        Settings.ofLayers loader.capacity ([found].map .ok) = .ok settings := by
  constructor
  · intro h
    obtain ⟨found, hfound⟩ := Settings.found_of_ofLayers h
    rw [loadFrom, hfound] at h
    obtain ⟨es, rest, rfl, hes, hrest⟩ := List.map_eq_cons_iff.mp hfound.symm
    obtain rfl := List.map_eq_nil_iff.mp hrest
    exact ⟨es, hes.symm, h⟩
  · rintro ⟨found, hfound, h⟩
    rw [loadFrom, hfound]
    exact h

end Host

end Ident160
