import MailMerge.Options

set_option autoImplicit false

namespace MailMerge

structure Settings where
  delimiters : Delimiters
  vocabulary : Vocabulary
  lookahead : Nat
  policy : SiblingPolicy
  /-- How many answers of a data model are remembered. -/
  cacheCapacity : Nat
  deriving Repr, DecidableEq

def Settings.toOptions (settings : Settings) : Options :=
  ⟨settings.delimiters, settings.vocabulary, settings.policy, settings.lookahead⟩

namespace Settings

inductive LoadError where
  /-- A single setting is given by a text that is no path. -/
  | badPath (path : Text)
  /-- A file that has to be there is not. -/
  | missingFile
  /-- A file is no TOML document. -/
  | badFile
  /-- A setting is missing or of the wrong kind. -/
  | badSetting
  deriving Repr, DecidableEq

end Settings

end MailMerge
