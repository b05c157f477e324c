import DeribitTrading.Json.Rapidjson
import DeribitTrading.Json.Nlohmann
import DeribitTrading.Library.Streaming

/-!
The third-party code the program calls, as far as it is a function of its
input. Nothing is assumed of these functions here; a result that relies on one
of their properties says so.
-/
namespace DeribitTrading
open ByteString

structure Libraries where
  /-- `rapidjson::Document::Parse`; `none` is a parse error -/
  rapidParse : Bytes → Option Rapidjson.Value
  /-- `nlohmann::json::parse`; `none` is a discarded value or a `parse_error` -/
  nlohmannParse : Bytes → Option Nlohmann.Json
  /-- `nlohmann::json::dump` of a parsed value -/
  dump : Nlohmann.Json → Bytes
  /-- zlib after `inflateInit2` with the gzip window bits -/
  gunzip : Streaming.Codec
  /-- zlib after `deflateInit`, each call with `Z_FINISH` -/
  deflate : Streaming.Codec

end DeribitTrading
