import Mathlib.Data.Set.Pairwise.Basic
import NewApi.Go.Strings

/-!
# The cache keys of channel affinity

A rule binds an affinity value, which the client chooses, to a channel.  The binding is cached under
`buildChannelAffinityCacheKeySuffix`, which joins its components with colons and escapes nothing.
-/

namespace NewApi.Channels.Affinity

open Go

structure ChannelAffinityRule where
  name : String
  includeUsingGroup : Bool
  includeModelName : Bool
  includeRuleName : Bool

def buildChannelAffinityCacheKeySuffix (rule : ChannelAffinityRule)
    (modelName usingGroup affinityValue : String) : String :=
  let ruleName := if rule.includeRuleName ∧ rule.name ≠ "" then [rule.name] else []
  let model := if rule.includeModelName ∧ modelName ≠ "" then [modelName] else []
  let group := if rule.includeUsingGroup ∧ usingGroup ≠ "" then [usingGroup] else []
  join (ruleName ++ model ++ group ++ [affinityValue]) ':'

structure Matched where
  rule : ChannelAffinityRule
  modelName : String
  usingGroup : String
  affinityValue : String
  flags : rule.includeRuleName ∧ rule.includeModelName ∧ rule.includeUsingGroup
  filled : rule.name ≠ "" ∧ modelName ≠ "" ∧ usingGroup ≠ "" ∧ affinityValue ≠ ""

/-- What is in front of the affinity value in a key. -/
@[ext]
structure Names where
  rule : String
  model : String
  group : String
  filled : rule ≠ "" ∧ model ≠ "" ∧ group ≠ ""

def Names.text (a : Names) : List Char :=
  a.rule.toList ++ ':' :: (a.model.toList ++ ':' :: (a.group.toList ++ [':']))

namespace Matched

def suffix (m : Matched) : String :=
  buildChannelAffinityCacheKeySuffix m.rule m.modelName m.usingGroup m.affinityValue

def names (m : Matched) : Names :=
  ⟨m.rule.name, m.modelName, m.usingGroup, m.filled.1, m.filled.2.1, m.filled.2.2.1⟩

theorem toList_suffix (m : Matched) : m.suffix.toList = m.names.text ++ m.affinityValue.toList := by
  obtain ⟨hRule, hModel, hGroup⟩ := m.flags
  obtain ⟨hName, hModelName, hUsing, -⟩ := m.filled
  simp [suffix, buildChannelAffinityCacheKeySuffix, join, hRule, hModel, hGroup, hName, hModelName,
    hUsing, List.intercalate_cons_cons, names, Names.text]

/-- A request with the names and the value. -/
def ofNames (a : Names) (value : String) (h : value ≠ "") : Matched :=
  ⟨⟨a.rule, true, true, true⟩, a.model, a.group, value, ⟨rfl, rfl, rfl⟩, a.filled.1, a.filled.2.1,
    a.filled.2.2, h⟩

end Matched

end NewApi.Channels.Affinity
