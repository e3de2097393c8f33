import RpcBindings.Source.Literal
import RpcBindings.Target.Dialect

/-!
# RpcBindings.Target.Ruby

Ruby documents: a client class with one method per remote method.  Inputs and outputs are hashes,
so nothing is declared, and the fields of an input are documented with the method that takes it.
-/

namespace RpcBindings.Ruby

/-- The libraries that the client needs. -/
def libraries : List String :=
  ["require 'net/http'",
   "require 'net/https'",
   "require 'json'",
   ""]

/-- The error class and the constructor of the client. -/
def classHead : List String :=
  ["    # Error is raised when an API call fails due to a 4xx or 5xx HTTP error.",
   "    class Error < StandardError",
   "      attr_reader :type",
   "      attr_reader :message",
   "      attr_reader :status",
   "",
   "      def initialize(status, type = nil, message = nil)",
   "        @status = status",
   "        @type = type",
   "        @message = message",
   "      end",
   "",
   "      def to_s",
   "        if @type",
   "          \"#\x7b@status\x7d response: #\x7b@type\x7d: #\x7b@message\x7d\"",
   "        else",
   "          \"#\x7b@status\x7d response\"",
   "        end",
   "      end",
   "    end",
   "",
   "    # Initialize the client with API endpoint URL and optional authentication token.",
   "    def initialize(url, auth_token = nil)",
   "      @url = url",
   "      @auth_token = auth_token",
   "    end"]

/-- The method that all client methods call, and the end of the class. -/
def call : List String :=
  ["    private",
   "",
   "    # call an API method with optional input parameters.",
   "    def call(method, params = nil)",
   "      url = @url + \"/\" + method",
   "      header = \x7b \"Content-Type\" => \"application/json\" \x7d",
   "",
   "      if @auth_token",
   "        header[\"Authorization\"] = \"Bearer #\x7b@auth_token\x7d\"",
   "      end",
   "",
   "      res = Net::HTTP.post URI(url), params.to_json, header",
   "      status = res.code.to_i",
   "",
   "      if status >= 400",
   "        begin",
   "          body = JSON.parse(res.body)",
   "        rescue JSON::ParserError",
   "          raise Error.new(status)",
   "        end",
   "        raise Error.new(status, body[\"type\"], body[\"message\"])",
   "      end",
   "",
   "      res.body",
   "    end",
   "  end",
   "end"]

def header (_ : Options) (_ : Schema) : Draft :=
  [.line 0 ("# " ++ generatedNotice), Draft.emptyLine]

/-- The beginning of the client class; its module and class are named by the options. -/
def clientHead (options : Options) : Draft :=
  let opening := ["module " ++ options.rubyModule, "  class " ++ options.rubyClass]
  [.block ("\n".intercalate (libraries ++ opening ++ classHead))]

/-- The comment on a field of an input. -/
def parameter (p : Parameter) : Stroke :=
  .line 2 (Text.trimEnd s!"# @option params [{p.type}] :{p.field.name} {p.summary}")

def stub (s : Stub) : Draft :=
  let hasInput := s.input.isSome
  let description := Text.capitalize s.method.description
  let arguments := Literal.singleQuoted s.method.name ++ (if hasInput then ", params" else "")
  [Draft.emptyLine, .line 2 ("# " ++ if description.isEmpty then s.function else description)] ++
  (if hasInput then
    [.line 2 "#", .line 2 "# @param [Hash] params the input for this method."] ++
      s.parameters.map parameter
   else []) ++
  (if s.output.isSome then [.line 2 "# @return [Hash] the output of this method."] else []) ++
  [.line 2 ("def " ++ s.function ++ if hasInput then "(params)" else "")] ++
  (if s.output.isSome then [.line 3 s!"JSON.parse(call({arguments}))"]
   else [.line 3 ("call " ++ arguments), .line 3 "nil"]) ++
  [.line 2 "end"]

def dialect : Dialect where
  indentUnit := "  "
  header := header
  declaration := fun _ _ => []
  validation := fun _ _ => []
  clientHead := clientHead
  stub := stub
  clientTail := [Draft.emptyLine] ++ Draft.ready call

end RpcBindings.Ruby
