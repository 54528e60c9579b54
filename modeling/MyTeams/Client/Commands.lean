import MyTeams.Client.Network

/-!
# Commands

`src/client/Command_parser.cpp`, `src/client/Individual.cpp`, `src/client/Command_dispatch.cpp` and
`src/client/stdin_handling.cpp`: from what is typed to the packets.
-/

namespace MyTeams

open ByteField

/-! ### Parsing a line -/

/-- `ParsedCommand`, when it is valid. -/
structure ParsedCommand where
  name : Str
  args : List Str
  deriving DecidableEq

/-- `ParsedCommand`: valid, or with the text of its error. -/
abbrev ParseResult := Except Str ParsedCommand

/-- The blank that separates arguments. -/
def space : UInt8 := 0x20

/-- The quote that encloses an argument. -/
def quote : UInt8 := 0x22

/-- One argument at the front of the rest of a line, which does not start with a blank: quoted up to
the next quote, or bare up to the next blank. `none` when the quote is never closed. -/
def parseArg (rest : Str) : Option (Str × Str) :=
  match rest with
  | [] => some ([], [])
  | b :: rest' =>
    if b = quote then
      let arg := rest'.takeWhile (· != quote)
      match rest'.dropWhile (· != quote) with
      | [] => none
      | _ :: after => some (arg, after)
    else some (rest.takeWhile (· != space), rest.dropWhile (· != space))

/-- The loop over the arguments, with at most `n` rounds. -/
def parseArgs : ℕ → Str → Option (List Str)
  | 0, _ => some []
  | n + 1, rest =>
    match rest.dropWhile (· == space) with
    | [] => some []
    | b :: rest' =>
      match parseArg (b :: rest') with
      | none => none
      | some (arg, after) => (parseArgs n after).map (arg :: ·)

/-- `_parse_line`. Each argument takes a byte at least, so a line never pays for more rounds than it
has bytes. -/
def parseLine (line : Str) : ParseResult :=
  match line with
  | [] => .error (text "Commands must start with '/'")
  | b :: rest =>
    if b ≠ 0x2F then .error (text "Commands must start with '/'")
    else
      match parseArgs (line.length + 1) (rest.dropWhile (· != space)) with
      | none => .error (text "Unclosed double quote in argument")
      | some args => .ok ⟨rest.takeWhile (· != space), args⟩

/-! ### The commands -/

namespace Client

variable (io : ℕ → Option ℕ)

/-- A command with one argument, sent in a field of the given width. -/
def cmdField (cmd : Command) (width : ℕ) (usage : String) (args : List Str) (c : Client) : Client :=
  match args with
  | [arg] => sendPacket io cmd (packFixed [] arg width) c
  | _ => c.print (text usage)

/-- `_cmd_help`. -/
def cmdHelp (c : Client) : Client :=
  c.print <| text <|
    "Available commands:\n" ++
    "  /help                                        Show this help\n" ++
    "  /login \"user_name\"                           Log in to the server\n" ++
    "  /logout                                      Disconnect from the server\n" ++
    "  /users                                       List all users\n" ++
    "  /user \"user_uuid\"                            Get details about a user\n" ++
    "  /send \"user_uuid\" \"message_body\"             Send a private message\n" ++
    "  /messages \"user_uuid\"                        List messages with a user\n" ++
    "  /subscribe \"team_uuid\"                       Subscribe to a team\n" ++
    "  /subscribed [\"team_uuid\"]                    List subscribed teams or team members\n" ++
    "  /unsubscribe \"team_uuid\"                     Unsubscribe from a team\n" ++
    "  /use [\"team_uuid\" [\"channel_uuid\" [\"thread_uuid\"]]]  Set context\n" ++
    "  /create [args...]                            Create resource (context-dependent)\n" ++
    "    (no context)          \"team_name\" \"team_description\"\n" ++
    "    (team)                \"channel_name\" \"channel_description\"\n" ++
    "    (team+channel)        \"thread_title\" \"thread_body\"\n" ++
    "    (team+channel+thread) \"comment_body\"\n" ++
    "  /list                                        List resources (context-dependent)\n" ++
    "  /info                                        Show info (context-dependent)\n"

/-- `_cmd_login`. -/
def cmdLogin (args : List Str) (c : Client) : Client :=
  cmdField io .login 32 "Usage: /login \"user_name\"\n" args c

/-- `_cmd_logout`. -/
def cmdLogout (c : Client) : Client := sendPacket io .logout [] c

/-- `_cmd_users`. -/
def cmdUsers (c : Client) : Client := sendPacket io .users [] c

/-- `_cmd_user`. -/
def cmdUser (args : List Str) (c : Client) : Client :=
  cmdField io .user 36 "Usage: /user \"user_uuid\"\n" args c

/-- `_cmd_send`. -/
def cmdSend (args : List Str) (c : Client) : Client :=
  match args with
  | [uuid, body] => sendPacket io .send (packFixed (packFixed [] uuid 36) body 512) c
  | _ => c.print (text "Usage: /send \"user_uuid\" \"message_body\"\n")

/-- `_cmd_messages`. -/
def cmdMessages (args : List Str) (c : Client) : Client :=
  cmdField io .messages 36 "Usage: /messages \"user_uuid\"\n" args c

/-- `_cmd_subscribe`. -/
def cmdSubscribe (args : List Str) (c : Client) : Client :=
  cmdField io .subscribe 36 "Usage: /subscribe \"team_uuid\"\n" args c

/-- `_cmd_subscribed`. -/
def cmdSubscribed (args : List Str) (c : Client) : Client :=
  match args with
  | [] => sendPacket io .subscribed [0x00] c
  | [uuid] => sendPacket io .subscribed (packFixed [0x01] uuid 36) c
  | _ => c.print (text "Usage: /subscribed [\"team_uuid\"]\n")

/-- `_cmd_unsubscribe`. -/
def cmdUnsubscribe (args : List Str) (c : Client) : Client :=
  cmdField io .unsubscribe 36 "Usage: /unsubscribe \"team_uuid\"\n" args c

/-- `_cmd_use`: the context is stored before the server has said anything. -/
def cmdUse (args : List Str) (c : Client) : Client :=
  match args with
  | [] =>
    sendPacket io .use [useNone]
      { c with useLevel := useNone, useTeamUuid := [], useChannelUuid := [], useThreadUuid := [] }
  | [team] =>
    sendPacket io .use (packFixed [useTeam] team 36)
      { c with useLevel := useTeam, useTeamUuid := team, useChannelUuid := [], useThreadUuid := [] }
  | [team, channel] =>
    sendPacket io .use (packFixed (packFixed [useChannel] team 36) channel 36)
      { c with
        useLevel := useChannel
        useTeamUuid := team
        useChannelUuid := channel
        useThreadUuid := [] }
  | [team, channel, thread] =>
    sendPacket io .use (packFixed (packFixed (packFixed [useThread] team 36) channel 36) thread 36)
      { c with
        useLevel := useThread
        useTeamUuid := team
        useChannelUuid := channel
        useThreadUuid := thread }
  | _ =>
    c.print (text "Usage: /use [\"team_uuid\" [\"channel_uuid\" [\"thread_uuid\"]]]\n")

/-- Two arguments, in fields of 32 bytes and of the given width. -/
def cmdCreatePair (width : ℕ) (usage : String) (args : List Str) (c : Client) : Client :=
  match args with
  | [name, body] => sendPacket io .create (packFixed (packFixed [] name 32) body width) c
  | _ => c.print (text usage)

/-- `_cmd_create`: the payload is laid out for the client's own level. -/
def cmdCreate (args : List Str) (c : Client) : Client :=
  if c.useLevel = useNone then
    cmdCreatePair io 255 "Usage: /create \"team_name\" \"team_description\"\n" args c
  else if c.useLevel = useTeam then
    cmdCreatePair io 255 "Usage: /create \"channel_name\" \"channel_description\"\n" args c
  else if c.useLevel = useChannel then
    cmdCreatePair io 512 "Usage: /create \"thread_title\" \"thread_body\"\n" args c
  else if c.useLevel = useThread then
    cmdField io .create 512 "Usage: /create \"comment_body\"\n" args c
  else sendPacket io .create [] c

/-- `_cmd_list`. -/
def cmdList (c : Client) : Client := sendPacket io .list [] c

/-- `_cmd_info`. -/
def cmdInfo (c : Client) : Client := sendPacket io .info [] c

/-- `_dispatch`. -/
def dispatch (cmd : ParsedCommand) (c : Client) : Client :=
  if cmd.name = text "help" then cmdHelp c
  else if cmd.name = text "login" then cmdLogin io cmd.args c
  else if cmd.name = text "logout" then cmdLogout io c
  else if cmd.name = text "users" then cmdUsers io c
  else if cmd.name = text "user" then cmdUser io cmd.args c
  else if cmd.name = text "send" then cmdSend io cmd.args c
  else if cmd.name = text "messages" then cmdMessages io cmd.args c
  else if cmd.name = text "subscribe" then cmdSubscribe io cmd.args c
  else if cmd.name = text "subscribed" then cmdSubscribed io cmd.args c
  else if cmd.name = text "unsubscribe" then cmdUnsubscribe io cmd.args c
  else if cmd.name = text "use" then cmdUse io cmd.args c
  else if cmd.name = text "create" then cmdCreate io cmd.args c
  else if cmd.name = text "list" then cmdList io c
  else if cmd.name = text "info" then cmdInfo io c
  else c.print (text "Unknown command: /" ++ cmd.name ++ text ". Type /help for help.\n")

/-! ### Standard input -/

/-- One line: an empty one is skipped, an invalid one is reported. -/
def handleLine (line : Str) (c : Client) : Client :=
  if line.isEmpty then c
  else
    match parseLine line with
    | .error e => c.print (text "Parse error: " ++ e ++ text "\n")
    | .ok cmd => dispatch io cmd c

/-- The byte that ends a line. -/
def newline : UInt8 := 0x0A

/-- The loop of `_handle_stdin`, with at most `n` rounds. -/
def stdinLoop : ℕ → Client → Client
  | 0, c => c
  | n + 1, c =>
    match c.stdinBuf.dropWhile (· != newline) with
    | [] => c
    | _ :: after =>
      let line := c.stdinBuf.takeWhile (· != newline)
      stdinLoop n (handleLine io line { c with stdinBuf := after })

/-- `_handle_stdin`, when `read` delivered `buf`, or failed or met the end of the input. -/
def handleStdin (buf : Str) (c : Client) : Client :=
  if buf.isEmpty then { c with running := false }
  else
    let c := { c with stdinBuf := c.stdinBuf ++ buf }
    stdinLoop io (c.stdinBuf.length + 1) c

end Client

end MyTeams
