import Mathlib.Algebra.Order.Field.Rat
import NewApi.Go.Json

/-!
# Options with maps of prices

`UpdateOption` writes the row of an option, then its text, and then the map that billing reads,
which is made empty before the text is decoded.  So a rejected update has changed all three.
-/

namespace NewApi.Settings

open Function

open Go (Json)
open Go.Json (UnmarshalError decodeFloat decodeMap unmarshalMap)

inductive MapOption where
  | modelRatio
  | modelPrice
  | completionRatio
  | cacheRatio
  | createCacheRatio
  | imageRatio
  | audioRatio
  | audioCompletionRatio
  | groupRatio
  | groupGroupRatio
  deriving DecidableEq, Repr

namespace MapOption

def all : List MapOption :=
  [modelRatio, modelPrice, completionRatio, cacheRatio, createCacheRatio, imageRatio, audioRatio,
    audioCompletionRatio, groupRatio, groupGroupRatio]

def key : MapOption → String
  | modelRatio => "ModelRatio"
  | modelPrice => "ModelPrice"
  | completionRatio => "CompletionRatio"
  | cacheRatio => "CacheRatio"
  | createCacheRatio => "CreateCacheRatio"
  | imageRatio => "ImageRatio"
  | audioRatio => "AudioRatio"
  | audioCompletionRatio => "AudioCompletionRatio"
  | groupRatio => "GroupRatio"
  | groupGroupRatio => "GroupGroupRatio"

def Table (V : Type) : MapOption → Type
  | groupGroupRatio => String → Option (String → Option V)
  | _ => String → Option V

/-- The maps that load with `LoadFromJsonStringWithCallback`. -/
def withCallback : MapOption → Bool
  | imageRatio | groupRatio | groupGroupRatio => false
  | _ => true

end MapOption

/-- The rows, the texts of `OptionMap` and the maps; the exposed data are cached or not. -/
structure OptionState (V : Type) where
  rows : MapOption → Option String
  optionMap : MapOption → Option String
  tables : (o : MapOption) → o.Table V
  exposedDataCached : Bool

section Update

variable {V : Type} [Zero V] (parseFloat : String → Option V)

/-- A map of numbers; a map that does not fit its type is a nil map. -/
def decodeRatios (value : Json) : (String → Option V) × Option UnmarshalError :=
  decodeMap (decodeFloat parseFloat) value

/-- What the map of an option is after `Unmarshal`, and the error. -/
def load : (o : MapOption) → String → o.Table V × Option UnmarshalError
  | .groupGroupRatio, value => unmarshalMap (decodeRatios parseFloat) value
  | .modelRatio, value | .modelPrice, value | .completionRatio, value | .cacheRatio, value
  | .createCacheRatio, value | .imageRatio, value | .audioRatio, value
  | .audioCompletionRatio, value | .groupRatio, value =>
    unmarshalMap (decodeFloat parseFloat) value

/-- `LoadFromJsonString`, with the callback on success for the maps that have one. -/
def loadFromJsonString (s : OptionState V) (o : MapOption) (value : String) :
    OptionState V × Option UnmarshalError :=
  ({ s with
      tables := Function.update s.tables o (load parseFloat o value).1
      exposedDataCached := s.exposedDataCached &&
        !(o.withCallback && (load parseFloat o value).2.isNone) },
    (load parseFloat o value).2)

def updateOptionMap (s : OptionState V) (o : MapOption) (value : String) :
    OptionState V × Option UnmarshalError :=
  loadFromJsonString parseFloat { s with optionMap := Function.update s.optionMap o (some value) } o
    value

/-- The row is made if it is not there, and saved with the value. -/
def updateOption (s : OptionState V) (o : MapOption) (value : String) :
    OptionState V × Option UnmarshalError :=
  updateOptionMap parseFloat { s with rows := Function.update s.rows o (some value) } o value

def loadRow (rows : MapOption → Option String) (s : OptionState V) (o : MapOption) :
    OptionState V :=
  match rows o with
  | none => s
  | some value => (updateOptionMap parseFloat s o value).1

def loadOptionsFromDatabase (s : OptionState V) : OptionState V :=
  MapOption.all.foldl (loadRow parseFloat s.rows) s

/-- The program starts again, with the defaults `boot` and the rows of the database. -/
def restart (boot s : OptionState V) : OptionState V :=
  loadOptionsFromDatabase parseFloat { boot with rows := s.rows }

/-- Rows, map and tables are as before, and so is what a restart makes of them. -/
structure Unchanged (boot s s' : OptionState V) : Prop where
  rows : s'.rows = s.rows
  optionMap : s'.optionMap = s.optionMap
  tables : s'.tables = s.tables
  restarted : (restart parseFloat boot s').tables = (restart parseFloat boot s).tables

end Update

section Results

variable {V : Type} [Zero V] {parseFloat : String → Option V}

theorem restart_congr (boot : OptionState V) {s s' : OptionState V} (h : s'.rows = s.rows) :
    restart parseFloat boot s' = restart parseFloat boot s := by
  unfold restart
  rw [h]

theorem unchanged_iff (boot s : OptionState V) (o : MapOption) (value : String) :
    Unchanged parseFloat boot s (updateOption parseFloat s o value).1 ↔
      s.rows o = some value ∧ s.optionMap o = some value ∧
        s.tables o = (load parseFloat o value).1 := by
  constructor
  · intro h
    refine ⟨?_, ?_, ?_⟩
    · exact (update_eq_self_iff.mp h.rows).symm
    · exact (update_eq_self_iff.mp h.optionMap).symm
    · exact (update_eq_self_iff.mp h.tables).symm
  · rintro ⟨hRow, hText, hTable⟩
    have hRows : (updateOption parseFloat s o value).1.rows = s.rows :=
      update_eq_self_iff.mpr hRow.symm
    refine ⟨hRows, ?_, ?_, congrArg OptionState.tables (restart_congr boot hRows)⟩
    · exact update_eq_self_iff.mpr hText.symm
    · exact update_eq_self_iff.mpr hTable.symm

def tenForM : OptionState ℚ where
  rows o := if o = .modelPrice then some "\x7b\"m\": 10\x7d" else none
  optionMap o := if o = .modelPrice then some "\x7b\"m\": 10\x7d" else none
  tables
    | .modelPrice => fun name => if name = "m" then some 10 else none
    | .groupGroupRatio => fun _ => none
    | .modelRatio | .completionRatio | .cacheRatio | .createCacheRatio | .imageRatio | .audioRatio
    | .audioCompletionRatio | .groupRatio => fun _ => none
  exposedDataCached := true

def modelPrices (s : OptionState V) : String → Option V := s.tables .modelPrice

end Results

end NewApi.Settings
