import EditorInsight.Ambient.Schema

/-!
# The bundled schema

The ambient objects that every document may use: the request context `reve`, the logger, the response
and error classes and the two token classes.
-/

namespace EditorInsight.Schema.Bundled

/-- A method with the part of its stub between the opening parenthesis and the empty body. -/
def method (name rest : String) : Member :=
  ⟨name, "method", "def " ++ name.toList ++ "(" ++ rest.toList ++ ": ..."⟩

def property (name type : String) : Member := ⟨name, "property", name.toList ++ ": " ++ type.toList⟩

def texts (ss : List String) : List Value := ss.map fun s => .text s.toList

def loggerMembers : List Member := [
  method "debug" "self, message: str, *args: Any, **kwargs: Any) -> None",
  method "info" "self, message: str, *args: Any, **kwargs: Any) -> None",
  method "warning" "self, message: str, *args: Any, **kwargs: Any) -> None",
  method "error" "self, message: str, *args: Any, **kwargs: Any) -> None",
  method "critical" "self, message: str, *args: Any, **kwargs: Any) -> None",
  method "exception" "self, message: str, *args: Any, **kwargs: Any) -> None"]

def reveRequestMembers : List Member := [
  property "method" "str",
  property "path" "str",
  property "headers" "Dict[str, Any]",
  property "data" "Dict[str, Any]",
  property "path_params" "Dict[str, Any]",
  property "query_params" "Dict[str, Any]",
  property "cookies" "Dict[str, Any]",
  property "meta" "Dict[str, Any]",
  property "files" "Any",
  property "user" "Optional[Any]",
  property "absolute_url" "Optional[str]"]

def reveAuthMembers : List Member := [
  method "encode_password" "self, password: str, validators: Optional[list] = None) -> str",
  method "check_password" "self, password: str, hashed_password: str) -> bool",
  method "generate_otp_value" "self, length: int = 6, *, use_number: bool = True, use_letter: bool = True) -> str",
  method "is_auth_enabled" "self) -> bool",
  method "is_auth_jwt_enabled" "self) -> bool",
  method "is_auth_jwt_cookie_enabled" "self) -> bool",
  method "is_auth_username_enabled" "self) -> bool",
  method "is_auth_email_enabled" "self) -> bool",
  method "is_auth_mobile_enabled" "self) -> bool",
  method "is_auth_social_github_enabled" "self) -> bool",
  method "is_auth_social_google_enabled" "self) -> bool",
  method "encode_jwt_refresh" "self, user: Any, **kwargs: Any) -> Any",
  method "encode_jwt_access" "self, refresh: Any, **kwargs: Any) -> Any",
  method "decode_jwt_refresh" "self, token_str: str) -> Any",
  method "decode_jwt_access" "self, token_str: str) -> Any",
  method "send_email" "self, subject: str, recipient: str, from_email: str, *, body: Optional[str] = None, content_subtype: str = 'plain', template_id: Optional[str] = None, dynamic_data: Optional[dict] = None) -> None",
  method "generate_github_auth_url" "self, *, redirect_url: str, state: Optional[str] = None) -> str",
  method "fetch_github_access_token" "self, code: str) -> dict",
  method "fetch_github_authenticated_user" "self, access_token: str) -> dict",
  method "generate_google_auth_url" "self, *, redirect_url: str, state: Optional[str] = None) -> str",
  method "fetch_google_access_token" "self, code: str, redirect_url: str) -> dict",
  method "fetch_google_authenticated_user" "self, access_token: str) -> dict",
  method "social_authenticate" "self, provider: str, code: str, redirect_url: Optional[str] = None) -> tuple",
  property "password_validators" "Any"]

def reveDatabaseMembers : List Member := [
  method "get" "self, table_name: str) -> Optional[_Table]",
  property "expressions" "_Expressions",
  property "exceptions" "_SQLExceptions"]

def reveDatabaseTableMembers : List Member := [
  method "insert" "self, **kwargs: Any) -> Any",
  method "select" "self) -> Any",
  method "select_for_update" "self, nowait: bool = False, skip_locked: bool = False, of: tuple = (), no_key: bool = False) -> Any",
  method "update_or_insert" "self, defaults: Optional[dict] = None, create_defaults: Optional[dict] = None, **kwargs: Any) -> Any",
  property "DoesNotExist" "type"]

def reveDatabaseExpressionsMembers : List Member := [
  property "Q" "type",
  property "F" "type",
  property "Func" "type",
  property "Value" "type",
  property "OuterRef" "type",
  property "Subquery" "type",
  property "Avg" "type",
  property "Count" "type",
  property "Min" "type",
  property "Max" "type",
  property "Sum" "type",
  property "Coalesce" "type",
  property "Concat" "type",
  property "Now" "type",
  property "Lower" "type",
  property "Upper" "type"]

def reveDatabaseExceptionsMembers : List Member := [
  property "ObjectDoesNotExist" "type",
  property "IntegrityError" "type"]

def reveUtilsMembers : List Member := [
  method "encode_password" "self, password: str, validators: Optional[list] = None, hasher: str = 'default') -> str",
  method "check_password" "self, password: str, encoded_password: str) -> bool",
  method "encrypt_aes256_cbc" "self, plaintext: str, key: bytes, iv: bytes, encoding: str = 'utf-8') -> bytes",
  method "encrypt_aes256_ecb" "self, plaintext: str, key: bytes, encoding: str = 'utf-8') -> bytes",
  method "decrypt_aes256_cbc" "self, ciphertext: bytes, key: bytes, iv: bytes, encoding: str = 'utf-8') -> str",
  method "decrypt_aes256_ecb" "self, ciphertext: bytes, key: bytes, encoding: str = 'utf-8') -> str",
  method "encode_sha256_base64" "self, text: str) -> str",
  method "generate_random_string" "self, min_length: int = 8, max_length: int = 16, *, use_number: bool = False, use_letter: bool = True, use_punctuation: bool = False, case_sensitive: bool = False) -> str",
  method "has_letter_in_string" "self, string: str) -> bool",
  method "has_digit_in_string" "self, string: str) -> bool",
  method "has_punctuation_in_string" "self, string: str) -> bool",
  method "to_datetime_tz" "self, value: str, format: str = '%Y-%m-%d %H:%M:%S.%f', from_tz: str = 'Asia/Seoul', to_tz: str = 'UTC') -> Optional[datetime]",
  method "to_datetime" "self, text: str, format: Optional[str] = None) -> datetime",
  method "now" "self) -> datetime",
  method "substring" "self, seq: str, start: Optional[int], end: Optional[int] = None) -> str",
  property "DIGITS" "str",
  property "PUNCTUATION" "str",
  property "ASCII_LOWER" "str",
  property "ASCII_UPPER" "str",
  property "LETTER" "str"]

def reveLibsMembers : List Member := [
  property "requests" "Any",
  property "urllib" "Any",
  property "base64" "Any",
  property "typing" "Any",
  property "zoneinfo" "Any",
  property "datetime" "Any",
  property "re" "Any",
  property "math" "Any",
  property "json" "Any",
  property "hashlib" "Any",
  property "paginator" "Any",
  property "jwt" "Any",
  property "google" "Any"]

def reveAiMembers : List Member := [
  method "chat" "self, message: str, *, model_name: Optional[str] = None, system_prompt: Optional[str] = None, output_schema: Optional[dict] = None, history: Optional[list] = None, temperature: Optional[float] = None, max_retries: Optional[int] = None, max_tokens: Optional[int] = None, timeout: Optional[int] = None) -> Union[str, dict]",
  method "create_text_collection" "self, collection_name: str, *, use_bm25: bool = False, recreate: bool = False) -> None",
  method "create_image_collection" "self, collection_name: str, *, recreate: bool = False) -> None",
  method "embed_query" "self, query: str) -> list",
  method "embed_texts" "self, texts: list) -> list",
  method "embed_images" "self, images: list) -> list",
  method "index_texts" "self, texts: list, *, collection_name: str, payloads: list, ids: Optional[list] = None) -> None",
  method "index_images" "self, images: list, *, collection_name: str, payloads: list, ids: Optional[list] = None) -> None",
  method "search_texts" "self, query: str, *, collection_name: str, top_k: int = 3, with_payload: bool = True, with_vectors: bool = False, score_threshold: Optional[float] = None) -> list",
  method "search_texts_in_memory" "self, query: str, *, texts: list, payloads: Optional[list] = None, top_k: int = 3) -> list",
  method "search_images" "self, image: Any, *, collection_name: str, top_k: int = 3, with_payload: bool = True, with_vectors: bool = False, score_threshold: Optional[float] = None) -> list"]

def responseMembers : List Member := [
  property "status_code" "int",
  property "content_type" "str",
  property "data" "Union[dict, None, Any]",
  method "add_data" "self, key: str, value: Any) -> None",
  method "set_cookie" "self, key: str, value: str = ..., max_age: Optional[int] = ..., expires: Optional[str] = ..., path: str = ..., domain: Optional[str] = ..., httponly: bool = ...) -> None",
  method "delete_cookie" "self, key: str, path: str = ..., domain: Optional[str] = ..., samesite: Optional[str] = ...) -> None"]

def reveMembers : List Member := [
  property "request" "_Request",
  property "user" "Optional[Any]",
  property "auth" "_Auth",
  property "database" "_Database",
  property "libs" "_Libs",
  property "system" "Dict[str, Any]",
  property "system_settings" "Dict[str, Any]",
  property "settings" "Dict[str, Any]",
  property "secrets" "Dict[str, Any]",
  property "secret_settings" "Dict[str, Any]",
  property "utils" "_Utils",
  property "ai" "_AI",
  property "env" "Dict[str, Any]",
  property "backend_root_url" "str",
  method "set_user" "self, user: Any) -> None",
  method "auth_signup" "self, *, password: str, confirm_password: str, **kwargs: Any) -> Response",
  method "auth_login" "self, *, password: str, **kwargs: Any) -> Response",
  method "auth_logout" "self) -> Response",
  method "auth_refresh" "self, refresh: str) -> Response",
  method "auth_signout" "self) -> Response",
  method "change_password" "self, *, old_password: str, new_password: str, confirm_password: str, **kwargs: Any) -> Response",
  method "send_email" "self, subject: str, message: str, recipient: str) -> None"]

def httpErrorMembers : List Member := [
  property "status_code" "int",
  property "data" "Optional[dict]"]

def tokenMembers : List Member := [
  property "user_id" "Any",
  property "exp" "Optional[int]",
  property "iat" "Optional[int]",
  method "encode" "self) -> str"]

def classes : List AmbientClass := [
  { name := "exceptions", key := "exceptions",
    nested := texts ["HttpException", "Http400", "Http401", "Http403", "Http404", "Http409", "Http410", "Http500"] },
  { name := "_Logger", key := "logger", members := loggerMembers },
  { name := "_Request", key := "reve.request", members := reveRequestMembers },
  { name := "_Auth", key := "reve.auth", members := reveAuthMembers },
  { name := "_Database", key := "reve.database", members := reveDatabaseMembers },
  { name := "_Table", key := "reve.database[]", members := reveDatabaseTableMembers },
  { name := "_Expressions", key := "reve.database.expressions",
    members := reveDatabaseExpressionsMembers },
  { name := "_SQLExceptions", key := "reve.database.exceptions",
    members := reveDatabaseExceptionsMembers },
  { name := "_Utils", key := "reve.utils", members := reveUtilsMembers },
  { name := "_Libs", key := "reve.libs", members := reveLibsMembers },
  { name := "_AI", key := "reve.ai", members := reveAiMembers },
  { name := "Response", key := "Response", members := responseMembers,
    initParameters := texts ["status_code: int = 200", "data: Union[dict, str, None] = None", "content_type: str = 'application/json'"] },
  { name := "Reve", key := "reve", members := reveMembers },
  { name := "Http400", key := "Http400", members := httpErrorMembers,
    initParameters := texts ["data: Optional[dict] = None"] },
  { name := "Http401", key := "Http401", members := httpErrorMembers,
    initParameters := texts ["data: Optional[dict] = None"] },
  { name := "Http403", key := "Http403", members := httpErrorMembers,
    initParameters := texts ["data: Optional[dict] = None"] },
  { name := "Http404", key := "Http404", members := httpErrorMembers,
    initParameters := texts ["data: Optional[dict] = None"] },
  { name := "Http409", key := "Http409", members := httpErrorMembers,
    initParameters := texts ["data: Optional[dict] = None"] },
  { name := "Http410", key := "Http410", members := httpErrorMembers,
    initParameters := texts ["data: Optional[dict] = None"] },
  { name := "Http500", key := "Http500", members := httpErrorMembers,
    initParameters := texts ["data: Optional[dict] = None"] },
  { name := "AccessToken", key := "AccessToken", members := tokenMembers,
    initParameters := texts ["user_id: Any", "**kwargs: Any"] },
  { name := "RefreshToken", key := "RefreshToken", members := tokenMembers,
    initParameters := texts ["user_id: Any", "**kwargs: Any"] }]

end EditorInsight.Schema.Bundled

namespace EditorInsight

/-- The schema that is used unless another one is given. -/
def Schema.bundled : Schema where
  roots := Schema.Bundled.texts ["reve", "logger", "exceptions", "Response", "Http400",
    "Http401", "Http403", "Http404", "Http409", "Http410", "Http500", "AccessToken",
    "RefreshToken"]
  classes := Schema.Bundled.classes

end EditorInsight
